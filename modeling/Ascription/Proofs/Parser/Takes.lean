import Ascription.Proofs.Parser.Cursor

/-!
# Proofs/Parser/Takes — parsers that take tokens and know where they fail

    Stands  ──p──▸  Past k       fewer than k tokens are left, or the error is one of the text

A text may be blamed at the spans of its tokens and what is merged from them, and where it runs out,
for what a parser finds wrong.  A parser **takes** tokens when from any state it leaves fewer of
them behind, and **keeps** to a bound when it takes none back.  What starts with a parser that
takes, and goes on with one that keeps, takes.
-/

namespace Ascription

/-- **What a parser finds wrong.**  It never asks for the equality operator, which it takes where
there is one, and what starts no token is found by the lexer. -/
inductive ParseError.Found : ParseError → Prop
  | expected {what found span} (asked : what ≠ .punct .tripleEquals) :
      Found (.malformed ⟨.expected what found, span⟩)
  | trailing {found span} : Found (.malformed ⟨.trailing found, span⟩)
  | undeclared {name span} : Found (.malformed ⟨.undeclared name, span⟩)
  | untypedCall {name span} : Found (.malformed ⟨.untypedCall name, span⟩)
  | illTyped {e} : Found (.illTyped e)

/-- **What a text may be blamed with**: the spans an error may point at, and the errors it may
be. -/
structure Blame where
  spans : Span → Prop
  errors : ParseError → Prop
  merge : ∀ {a b}, spans a → spans b → spans (Span.merge a b)
  located : ∀ {e}, e.Found → spans e.span → errors e

/-! ## Replies -/

/-- **A reply as it should be**: a value with what is left, or an error that may be.
Fuel does not run out. -/
inductive Reply.Meets {α : Type} (E : ParseError → Prop) (Q : α → ParserState → Prop) :
    Reply α → Prop
  | done {a s} (post : Q a s) : Meets E Q (.done a s)
  | failed {e} (error : E e) : Meets E Q (.failed e)

namespace Reply.Meets

variable {α β : Type} {E : ParseError → Prop} {Q : α → ParserState → Prop}
  {Q' : β → ParserState → Prop} {s : ParserState}

theorem bind {p : Parser α} {f : α → Parser β} (h : (p s).Meets E Q)
    (hf : ∀ a s', Q a s' → (f a s').Meets E Q') : ((p >>= f) s).Meets E Q' := by
  simp only [Bind.bind]
  cases hp : p s with
  | done a s' =>
    rw [hp] at h
    obtain @⟨_, _, post⟩ := h
    exact hf a s' post
  | failed e =>
    rw [hp] at h
    cases h with
    | failed error => exact .failed error
  | exhausted =>
    rw [hp] at h
    cases h

theorem imp {Q₁ : α → ParserState → Prop} {r : Reply α} (h : r.Meets E Q)
    (himp : ∀ a s, Q a s → Q₁ a s) : r.Meets E Q₁ := by
  cases h with
  | done post => exact .done (himp _ _ post)
  | failed error => exact .failed error

end Reply.Meets

/-! ## States -/

namespace ParserState

variable {B : Blame} {s s' : ParserState} {k k' : Nat}

/-- The place behind the last token, of those to come or else of those taken. -/
def final (s : ParserState) : Position := ((s.tokens.getLast?.map Token.span).getD s.previous).stop

/-- **A state from which every refusal is one of the text**: the tokens to come may be blamed, and
so may what ends them. -/
structure Stands (B : Blame) (s : ParserState) : Prop where
  live : s.Live
  tokens : ∀ t ∈ s.tokens, B.spans t.span
  failure : ∀ f, s.failure = some f → B.errors (.malformed f)
  ended : s.failure = none → ∀ what, what ≠ .punct .tripleEquals →
    B.errors (.malformed ⟨.expected what none, Span.point s.final⟩)

/-- **A state behind some token**, with fewer than `k` tokens to come. -/
structure Past (B : Blame) (k : Nat) (s : ParserState) : Prop where
  stands : s.Stands B
  previous : B.spans s.previous
  fewer : s.tokens.length < k

theorem Past.mono (h : s.Past B k) (hk : k ≤ k') : s.Past B k' :=
  ⟨h.stands, h.previous, Nat.lt_of_lt_of_le h.fewer hk⟩

/-- The declarations do not matter. -/
theorem Past.declare (h : s.Past B k) {ds : Declarations} :
    ({ s with declarations := ds }).Past B k :=
  ⟨⟨h.stands.live, h.stands.tokens, h.stands.failure, h.stands.ended⟩, h.previous, h.fewer⟩

end ParserState

namespace Parser

open ParserState

variable {α β : Type} {B : Blame} {s : ParserState} {n : Nat} {R : α → Prop} {R' : β → Prop}

/-! ## Taking and keeping -/

/-- **A parser that takes tokens**, wherever it starts with fewer than `n` of them. -/
def Takes (B : Blame) (n : Nat) (R : α → Prop) (p : Parser α) : Prop :=
  ∀ s, s.Stands B → s.tokens.length < n →
    (p s).Meets B.errors fun a s' => s'.Past B s.tokens.length ∧ R a

/-- **A parser that gives no token back**, behind a token and within any bound up to `n`. -/
def Keeps (B : Blame) (n : Nat) (R : α → Prop) (p : Parser α) : Prop :=
  ∀ k ≤ n, ∀ s, s.Past B k → (p s).Meets B.errors fun a s' => s'.Past B k ∧ R a

theorem Takes.keeps {p : Parser α} (h : Takes B n R p) : Keeps B n R p := by
  intro k hk s hs
  refine (h s hs.stands (Nat.lt_of_lt_of_le hs.fewer hk)).imp fun a s' ⟨hs', ha⟩ => ⟨?_, ha⟩
  exact hs'.mono (Nat.le_of_lt hs.fewer)

theorem Takes.bind {p : Parser α} {f : α → Parser β} (hp : Takes B n R p)
    (hf : ∀ a, R a → Keeps B n R' (f a)) : Takes B n R' (p >>= f) := by
  intro s hs hn
  exact (hp s hs hn).bind fun a s' ⟨hs', ha⟩ => hf a ha _ (Nat.le_of_lt hn) s' hs'

/-- What comes behind a first token has one token fewer to come. -/
theorem Takes.first {p : Parser α} {f : α → Parser β} (hp : Takes B (n + 1) R p)
    (hf : ∀ a, R a → Keeps B n R' (f a)) : Takes B (n + 1) R' (p >>= f) := by
  intro s hs hn
  exact (hp s hs hn).bind fun a s' ⟨hs', ha⟩ => hf a ha _ (Nat.le_of_lt_succ hn) s' hs'

theorem Keeps.bind {p : Parser α} {f : α → Parser β} (hp : Keeps B n R p)
    (hf : ∀ a, R a → Keeps B n R' (f a)) : Keeps B n R' (p >>= f) := by
  intro k hk s hs
  exact (hp k hk s hs).bind fun a s' ⟨hs', ha⟩ => hf a ha k hk s' hs'

theorem Takes.mono {p : Parser α} {m : Nat} (h : Takes B n R p) (hm : m ≤ n) : Takes B m R p :=
  fun s hs hn => h s hs (Nat.lt_of_lt_of_le hn hm)

/-! ## Steps that take nothing -/

theorem Keeps.pure {a : α} (h : R a) : Keeps B n R (pure a) := fun _ _ _ hs => .done ⟨hs, h⟩

theorem Keeps.fail {e : ParseError} (he : e.Found) (h : B.spans e.span) : Keeps B n R (fail e) :=
  fun _ _ _ _ => .failed (B.located he h)

/-- A verdict blames the text where it is an error. -/
theorem Keeps.judge {verdict : Except TypeError α} (h : ∀ e, verdict = .error e → B.spans e.span) :
    Keeps B n (fun _ => True) (judge verdict) := by
  cases verdict with
  | ok a => exact .pure trivial
  | error e => exact .fail .illTyped (h e rfl)

theorem Keeps.previousSpan : Keeps B n B.spans previousSpan :=
  fun _ _ _ hs => .done ⟨hs, hs.previous⟩

theorem Keeps.state : Keeps B n (fun _ => True) state := fun _ _ _ hs => .done ⟨hs, trivial⟩

theorem Keeps.looksAt {p : Punct} : Keeps B n (fun _ => True) (looksAt p) := fun _ _ _ hs =>
  .done ⟨hs, trivial⟩

/-! ## Tokens -/

/-- **Refusing what is next** blames it, or the end of the text. -/
theorem expected_meets {what : Expectation} {Q : α → ParserState → Prop} (hs : s.Stands B)
    (hwhat : what ≠ .punct .tripleEquals) : (expected what s).Meets B.errors Q := by
  obtain ⟨tokens, f, p, ds⟩ := s
  cases tokens with
  | nil => exact .failed (hs.ended (hs.live rfl) what hwhat)
  | cons t ts => exact .failed (B.located (.expected hwhat) (hs.tokens t List.mem_cons_self))

/-- **Taking the next token.** -/
theorem advance_meets (hs : s.Stands B) (hnext : s.tokens ≠ []) :
    (advance s).Meets B.errors fun t s' => s'.Past B s.tokens.length ∧ B.spans t.span := by
  obtain ⟨tokens, f, p, ds⟩ := s
  cases tokens with
  | nil => exact absurd rfl hnext
  | cons t ts =>
    obtain ⟨ht, hts⟩ := List.forall_mem_cons.mp hs.tokens
    have hpast : ts = [] ∧ f = none ∨ ts ≠ [] →
        ParserState.Past B (ts.length + 1) ⟨ts, f, t.span, ds⟩ := by
      intro hlive
      refine ⟨⟨fun h => ?_, hts, hs.failure, ?_⟩, ht, Nat.lt_succ_self _⟩
      · exact hlive.elim And.right fun hne => absurd h hne
      · have hended := hs.ended
        cases ts with
        | nil => exact hended
        | cons => exact hended
    cases ts with
    | cons t' ts => exact .done ⟨hpast (.inr nofun), ht⟩
    | nil =>
      cases f with
      | none => exact .done ⟨hpast (.inl ⟨rfl, rfl⟩), ht⟩
      | some e => exact .failed (hs.failure e rfl)

theorem tokens_ne_nil {k : TokenKind} (h : s.place.next = some k) : s.tokens ≠ [] := by
  intro hnil
  rw [Place.next, place, hnil] at h
  cases h

/-- Looking at the next token before going on. -/
theorem peek_bind {f : Option TokenKind → Parser α} : (peek >>= f) s = f s.place.next s := rfl

theorem looksAt_bind {p : Punct} {f : Bool → Parser α} :
    (looksAt p >>= f) s = f (s.place.next == some (.punct p)) s := rfl

theorem Takes.expect {p : Punct} (hp : p ≠ .tripleEquals) :
    Takes B n B.spans (expect p) := by
  have hwhat : Expectation.punct p ≠ .punct .tripleEquals := fun h => hp (Expectation.punct.inj h)
  intro s hs _
  rw [Parser.expect, looksAt_bind]
  split
  case isTrue hnext =>
    exact (advance_meets hs (tokens_ne_nil (beq_iff_eq.mp hnext))).bind fun t s' h => .done h
  case isFalse => exact expected_meets hs hwhat

theorem Takes.expectName : Takes B n (fun x => B.spans x.2) expectName := by
  intro s hs _
  rw [Parser.expectName, peek_bind]
  rcases hk : s.place.next with _ | k
  · exact expected_meets hs (by decide)
  · cases k with
    | name name => exact (advance_meets hs (tokens_ne_nil hk)).bind fun t s' h => .done h
    | _ => exact expected_meets hs (by decide)

theorem Keeps.accept {p : Punct} : Keeps B n (fun _ => True) (accept p) := by
  intro k hk s hs
  rw [Parser.accept, looksAt_bind]
  split
  case isTrue hp =>
    refine (advance_meets hs.stands (tokens_ne_nil (beq_iff_eq.mp hp))).bind fun t s' h =>
      .done ⟨?_, trivial⟩
    exact h.1.mono (Nat.le_of_lt hs.fewer)
  case isFalse => exact .done ⟨hs, trivial⟩

/-! ## Lists -/

section Lists

variable {item : List α → Parser α} {close : Punct}
  (hitem : ∀ xs, (∀ x ∈ xs, R x) → Takes B n R (item xs))

include hitem

/-- Each item and the comma behind it take tokens, so there is fuel for all of them. -/
theorem itemsFrom_meets (hclose : close ≠ .tripleEquals) {fuel k : Nat} (hk : k ≤ n) {xs : List α}
    (hxs : ∀ x ∈ xs, R x) (hs : s.Past B k) (hfuel : s.tokens.length < fuel) :
    (itemsFrom item close fuel xs s).Meets B.errors fun ys s' => s'.Past B k ∧ ∀ y ∈ ys, R y := by
  induction fuel generalizing s xs with
  | zero => exact absurd hfuel (Nat.not_lt_zero _)
  | succ fuel ih =>
    rw [itemsFrom, looksAt_bind]
    split
    case isTrue =>
      exact ((Takes.expect hclose).keeps k hk s hs).bind fun _ s' ⟨hs', _⟩ => .done ⟨hs', hxs⟩
    case isFalse =>
      refine (hitem xs hxs s hs.stands (Nat.lt_of_lt_of_le hs.fewer hk)).bind
        fun x s₁ ⟨hs₁, hx⟩ => ?_
      have hxs' : ∀ y ∈ xs ++ [x], R y :=
        List.forall_mem_append.mpr ⟨hxs, List.forall_mem_singleton.mpr hx⟩
      have hlength : s.tokens.length ≤ k := Nat.le_of_lt hs.fewer
      refine (Keeps.accept _ (Nat.le_trans hlength hk) s₁ hs₁).bind fun comma s₂ ⟨hs₂, _⟩ => ?_
      cases comma with
      | true =>
        have hlt := Nat.lt_of_lt_of_le hs₂.fewer (Nat.le_of_lt_succ hfuel)
        exact ih hxs' (hs₂.mono hlength) hlt
      | false =>
        exact ((Takes.expect hclose).keeps k hk s₂ (hs₂.mono hlength)).bind fun _ s' ⟨hs', _⟩ =>
          .done ⟨hs', hxs'⟩

/-- **A list** behind its opening mark. -/
theorem Keeps.items (hclose : close ≠ .tripleEquals) :
    Keeps B n (fun xs => ∀ x ∈ xs, R x) (items item close) := fun _ hk _ hs =>
  itemsFrom_meets hitem hclose hk (List.forall_mem_nil _) hs (Nat.lt_succ_self _)

end Lists

end Parser

end Ascription
