import Ascription.Parser.Cursor
import Ascription.Proofs.Phrase.Elaborate
import Ascription.Proofs.Phrase.Unique

/-!
# Proofs/Parser/Cursor — what the primitive parsers do

Read backwards, a parser that answers tells how its state began (`advance_eq_done`); read
forwards, a state that begins so is answered (`advance_state`).  The two directions serve
soundness and completeness.
-/

namespace Ascription

/-- Where a parser stands in the token list. -/
def ParserState.place (s : ParserState) : Place := ⟨s.previous, s.tokens⟩

/-- No failure lies in wait behind the last token taken. -/
def ParserState.Live (s : ParserState) : Prop := s.tokens = [] → s.failure = none

/-- The state at a place of a text that can be read to its end. -/
def Place.state (c : Place) (ds : Declarations) : ParserState := ⟨c.tokens, none, c.previous, ds⟩

@[simp] theorem place_mk {ts f p ds} : ParserState.place ⟨ts, f, p, ds⟩ = ⟨p, ts⟩ := rfl

@[simp] theorem place_state {c : Place} {ds} : (c.state ds).place = c := rfl

namespace Parser

variable {α β : Type} {s s' : ParserState} {c : Place} {ds : Declarations}

/-! ## Backwards -/

theorem bind_done {p : Parser α} {f : α → Parser β} {a : α} (h : p s = .done a s') :
    (p >>= f) s = f a s' := by
  simp only [bind, h]

theorem bind_eq_done {p : Parser α} {f : α → Parser β} {b : β} :
    (p >>= f) s = .done b s' ↔ ∃ a s₁, p s = .done a s₁ ∧ f a s₁ = .done b s' := by
  simp only [bind]
  cases p s with
  | done a s₁ => exact ⟨fun h => ⟨a, s₁, rfl, h⟩, by rintro ⟨_, _, ⟨⟩, h⟩; exact h⟩
  | failed | exhausted => simp

theorem map_eq_done {p : Parser α} {f : α → β} {b : β} :
    (f <$> p) s = .done b s' ↔ ∃ a, p s = .done a s' ∧ f a = b := by
  change (p >>= fun a => pure (f a)) s = _ ↔ _
  rw [bind_eq_done]
  constructor
  · rintro ⟨a, s₁, h, h'⟩
    cases h'
    exact ⟨a, h, rfl⟩
  · rintro ⟨a, h, rfl⟩
    exact ⟨a, s', h, rfl⟩

theorem done_eq_done {a b : α} : Reply.done a s = .done b s' ↔ a = b ∧ s = s' := by
  rw [Reply.done.injEq]

theorem pure_eq_done {a b : α} : (pure a : Parser α) s = .done b s' ↔ a = b ∧ s = s' :=
  done_eq_done

theorem fail_ne_done {e : ParseError} {a : α} : ¬ (fail e : Parser α) s = .done a s' := nofun

theorem failForm_ne_done {fault : SyntaxFault} {span : Span} {a : α} :
    ¬ (failForm fault span : Parser α) s = .done a s' := nofun

theorem expected_ne_done {what : Expectation} {a : α} :
    ¬ (expected what : Parser α) s = .done a s' := nofun

theorem exhausted_ne_done {a : α} : ¬ (exhausted : Parser α) s = .done a s' := nofun

theorem judge_eq_done {verdict : Except TypeError α} {a : α} :
    judge verdict s = .done a s' ↔ verdict = .ok a ∧ s = s' := by
  cases verdict with
  | ok b => rw [judge, pure_eq_done, Except.ok.injEq]
  | error e => simp [judge, fail_ne_done]

theorem peek_eq_done {k : Option TokenKind} :
    peek s = .done k s' ↔ s.place.next = k ∧ s = s' :=
  done_eq_done

theorem looksAt_eq_done {q : Punct} {b : Bool} :
    looksAt q s = .done b s' ↔ (s.place.next == some (.punct q)) = b ∧ s = s' :=
  done_eq_done

theorem previousSpan_eq_done {span : Span} :
    previousSpan s = .done span s' ↔ s.previous = span ∧ s = s' :=
  done_eq_done

theorem state_eq_done {s₁ : ParserState} : state s = .done s₁ s' ↔ s = s₁ ∧ s = s' :=
  done_eq_done

/-- **What a token that can be taken leaves.** -/
theorem advance_eq_done {t : Token} :
    advance s = .done t s' ↔ ∃ p ts f ds, s = ⟨t :: ts, f, p, ds⟩ ∧ s' = ⟨ts, f, t.span, ds⟩ ∧
      (ts = [] → f = none) := by
  obtain ⟨tokens, f, p, ds⟩ := s
  constructor
  · intro h
    cases tokens with
    | nil => cases h
    | cons t' ts =>
      cases ts with
      | cons t'' ts =>
        cases h
        exact ⟨p, t'' :: ts, f, ds, rfl, rfl, by simp⟩
      | nil =>
        cases f with
        | none =>
          cases h
          exact ⟨p, [], none, ds, rfl, rfl, fun _ => rfl⟩
        | some => cases h
  · rintro ⟨p, ts, f, ds, h, rfl, hf⟩
    cases h
    cases ts with
    | nil =>
      cases hf rfl
      rfl
    | cons => rfl

/-- A token taken for what it is made of. -/
theorem map_advance_eq_done {f : Token → α} {a : α} :
    (do return f (← advance) : Parser α) s = .done a s' ↔
      ∃ t, advance s = .done t s' ∧ f t = a := by
  rw [bind_eq_done]
  constructor
  · rintro ⟨t, s₁, h, h'⟩
    cases h'
    exact ⟨t, h, rfl⟩
  · rintro ⟨t, h, rfl⟩
    exact ⟨t, s', h, rfl⟩

theorem expect_eq_done {q : Punct} {span : Span} :
    expect q s = .done span s' ↔ ∃ p ts f ds, s = ⟨⟨.punct q, span⟩ :: ts, f, p, ds⟩ ∧
      s' = ⟨ts, f, span, ds⟩ ∧ (ts = [] → f = none) := by
  change (if s.place.next == some (.punct q) then (do return (← advance).span) else
    (expected (.punct q) : Parser Span)) s = _ ↔ _
  split
  case isTrue hq =>
    rw [map_advance_eq_done]
    constructor
    · rintro ⟨⟨k, _⟩, h, rfl⟩
      obtain ⟨p, ts, f, ds, rfl, rfl, hf⟩ := advance_eq_done.mp h
      obtain rfl : k = .punct q := by simpa using hq
      exact ⟨p, ts, f, ds, rfl, rfl, hf⟩
    · rintro ⟨p, ts, f, ds, rfl, rfl, hf⟩
      exact ⟨⟨.punct q, span⟩, advance_eq_done.mpr ⟨p, ts, f, ds, rfl, rfl, hf⟩, rfl⟩
  case isFalse hq =>
    constructor
    · exact fun h => absurd h expected_ne_done
    · rintro ⟨p, ts, f, ds, rfl, -⟩
      simp at hq

theorem expectName_eq_done {x : String × Span} :
    expectName s = .done x s' ↔ ∃ p ts f ds, s = ⟨⟨.name x.1, x.2⟩ :: ts, f, p, ds⟩ ∧
      s' = ⟨ts, f, x.2, ds⟩ ∧ (ts = [] → f = none) := by
  by_cases hn : ∃ name, s.place.next = some (.name name)
  · obtain ⟨name, hn⟩ := hn
    have h : expectName s = (do return (name, (← advance).span) : Parser (String × Span)) s := by
      simp only [expectName, bind_done (peek_eq_done.mpr ⟨hn, rfl⟩)]
    rw [h, map_advance_eq_done]
    constructor
    · rintro ⟨⟨k, _⟩, h, rfl⟩
      obtain ⟨p, ts, f, ds, rfl, rfl, hf⟩ := advance_eq_done.mp h
      obtain rfl : k = .name name := by simpa using hn
      exact ⟨p, ts, f, ds, rfl, rfl, hf⟩
    · rintro ⟨p, ts, f, ds, rfl, rfl, hf⟩
      obtain rfl : x.1 = name := by simpa using hn
      exact ⟨⟨.name x.1, x.2⟩, advance_eq_done.mpr ⟨p, ts, f, ds, rfl, rfl, hf⟩, rfl⟩
  · constructor
    · intro h
      obtain ⟨k, _, hk, h⟩ := bind_eq_done.mp h
      obtain ⟨rfl, rfl⟩ := peek_eq_done.mp hk
      rcases hk : s.place.next with _ | k
      · rw [hk] at h
        exact absurd h expected_ne_done
      · rw [hk] at h
        cases k with
        | name name => exact absurd ⟨name, hk⟩ hn
        | _ => exact absurd h expected_ne_done
    · rintro ⟨p, ts, f, ds, rfl, -⟩
      exact absurd ⟨x.1, rfl⟩ hn

/-- A mark that is taken if it is next. -/
theorem accept_eq_done {q : Punct} {b : Bool} :
    accept q s = .done b s' ↔ (b = true ∧ ∃ span, expect q s = .done span s') ∨
      (b = false ∧ s.place.next ≠ some (.punct q) ∧ s = s') := by
  change (if s.place.next == some (.punct q) then (do let _ ← advance; return true) else
    (pure false : Parser Bool)) s = _ ↔ _
  split
  case isTrue hq =>
    have hq : s.place.next = some (.punct q) := by simpa using hq
    rw [bind_eq_done]
    constructor
    · rintro ⟨⟨k, span⟩, s₁, h, h'⟩
      cases h'
      obtain ⟨p, ts, f, ds, rfl, rfl, hf⟩ := advance_eq_done.mp h
      obtain rfl : k = .punct q := by simpa using hq
      exact .inl ⟨rfl, span, expect_eq_done.mpr ⟨p, ts, f, ds, rfl, rfl, hf⟩⟩
    · rintro (⟨rfl, span, h⟩ | ⟨-, h, -⟩)
      · obtain ⟨p, ts, f, ds, rfl, rfl, hf⟩ := expect_eq_done.mp h
        exact ⟨_, _, advance_eq_done.mpr ⟨p, ts, f, ds, rfl, rfl, hf⟩, rfl⟩
      · exact absurd hq h
  case isFalse hq =>
    rw [pure_eq_done]
    constructor
    · rintro ⟨rfl, rfl⟩
      exact .inr ⟨rfl, by simpa using hq, rfl⟩
    · rintro (⟨-, span, h⟩ | ⟨rfl, -, rfl⟩)
      · obtain ⟨p, ts, f, ds, rfl, -⟩ := expect_eq_done.mp h
        simp at hq
      · exact ⟨rfl, rfl⟩

/-! ## Forwards -/

theorem advance_state {p : Span} {t : Token} {ts : List Token} :
    advance (Place.state ⟨p, t :: ts⟩ ds) = .done t (Place.state ⟨t.span, ts⟩ ds) :=
  advance_eq_done.mpr ⟨p, ts, none, ds, rfl, rfl, fun _ => rfl⟩

theorem expect_state {p span : Span} {q : Punct} {ts : List Token} :
    expect q (Place.state ⟨p, ⟨.punct q, span⟩ :: ts⟩ ds)
      = .done span (Place.state ⟨span, ts⟩ ds) :=
  expect_eq_done.mpr ⟨p, ts, none, ds, rfl, rfl, fun _ => rfl⟩

theorem expectName_state {p span : Span} {name : String} {ts : List Token} :
    expectName (Place.state ⟨p, ⟨.name name, span⟩ :: ts⟩ ds)
      = .done (name, span) (Place.state ⟨span, ts⟩ ds) :=
  expectName_eq_done.mpr ⟨p, ts, none, ds, rfl, rfl, fun _ => rfl⟩

theorem accept_state {p span : Span} {q : Punct} {ts : List Token} :
    accept q (Place.state ⟨p, ⟨.punct q, span⟩ :: ts⟩ ds) =
      .done true (Place.state ⟨span, ts⟩ ds) :=
  accept_eq_done.mpr (.inl ⟨rfl, span, expect_state⟩)

theorem accept_state_of_ne {q : Punct} (h : c.next ≠ some (.punct q)) :
    accept q (c.state ds) = .done false (c.state ds) :=
  accept_eq_done.mpr (.inr ⟨rfl, h, rfl⟩)

theorem peek_state : peek (c.state ds) = .done c.next (c.state ds) := rfl

theorem looksAt_state {q : Punct} :
    looksAt q (c.state ds) = .done (c.next == some (.punct q)) (c.state ds) := rfl

theorem previousSpan_state : previousSpan (c.state ds) = .done c.previous (c.state ds) := rfl

theorem judge_ok {verdict : Except TypeError α} {a : α} (h : verdict = .ok a) :
    judge verdict s = .done a s := by
  rw [h]
  rfl

end Parser

end Ascription
