import Ascription.Proofs.Phrase.Grammar
import Ascription.Proofs.Token.Lexes

/-!
# Proofs/Text/Renders — texts that read as what they are the text of

A text **renders** something when, in front of any rest, it is cut into words that a production of
the grammar takes, and leaves the words of the rest.  What the rest may start with is part of the
statement: a condition on its characters for the lexer, one on its words for the grammar.
-/

namespace Ascription

open Grammar Lexer

namespace Place

/-- What the tokens to come are. -/
def kinds (c : Place) : List TokenKind := c.tokens.map Token.kind

theorem kinds_eq_cons {c : Place} {k : TokenKind} {ks : List TokenKind} (h : c.kinds = k :: ks) :
    ∃ p s ts, c = ⟨p, ⟨k, s⟩ :: ts⟩ ∧ Place.kinds ⟨s, ts⟩ = ks := by
  obtain ⟨p, ts⟩ := c
  obtain ⟨⟨k', s⟩, ts, rfl, hk, hts⟩ := List.map_eq_cons_iff.mp h
  exact ⟨p, s, ts, hk ▸ rfl, hts⟩

theorem kinds_cons {p : Span} {ts : List Token} {k : TokenKind} {ks : List TokenKind}
    (h : Place.kinds ⟨p, ts⟩ = k :: ks) :
    ∃ s ts', ts = ⟨k, s⟩ :: ts' ∧ Place.kinds ⟨s, ts'⟩ = ks := by
  obtain ⟨_, s, ts', heq, hts⟩ := kinds_eq_cons h
  cases heq
  exact ⟨s, ts', rfl, hts⟩

theorem next_eq {c : Place} : c.next = c.kinds.head? := by
  rw [next, kinds, List.head?_map]

end Place

/-- **A text renders** what has the property `P`, in the grammar `G`, before characters in `Q` and
words in `A`. -/
def Renders {α : Type} (Q : List Char → Prop) (A : List TokenKind → Prop)
    (G : Place → α → Place → Prop) (text : String) (P : α → Prop) : Prop :=
  ∀ ⦃rest after⦄, Q rest → A after → Lexes rest after →
    ∃ kinds, Lexes (text.toList ++ rest) kinds ∧
      ∀ c : Place, c.kinds = kinds → ∃ a c', G c a c' ∧ c'.kinds = after ∧ P a

theorem Renders.mono {α : Type} {Q Q' : List Char → Prop} {A A' : List TokenKind → Prop}
    {G G' : Place → α → Place → Prop} {text : String} {P : α → Prop} (h : Renders Q A G text P)
    (hQ : ∀ cs, Q' cs → Q cs) (hA : ∀ ks, A' ks → A ks)
    (hG : ∀ {c a c'}, G c a c' → G' c a c') : Renders Q' A' G' text P := by
  intro rest after hq ha hrest
  obtain ⟨ks, hlex, hread⟩ := h (hQ rest hq) (hA after ha) hrest
  refine ⟨ks, hlex, fun c hc => ?_⟩
  obtain ⟨a, c', hg, hc', hp⟩ := hread c hc
  exact ⟨a, c', hG hg, hc', hp⟩

section

variable {Q : List Char → Prop} {A : List TokenKind → Prop} {rest : List Char}
  {after : List TokenKind}

/-- **A list renders** when its items do, before a comma as well. -/
theorem renders_listed {X α : Type} {Item : Place → α → Place → Prop} {f : X → String}
    {P : X → α → Prop} {L : List X → List α → Prop} (hnil : L [] [])
    (hcons : ∀ {x a xs as}, P x a → L xs as → L (x :: xs) (a :: as))
    (hQ : ∀ cs, Q (',' :: cs)) (hA : ∀ ks, A (.punct .comma :: ks)) {xs : List X}
    (h : ∀ x ∈ xs, Renders Q A Item (f x) (P x)) :
    Renders Q A (Listed Item) (", ".intercalate (xs.map f)) (L xs) := by
  induction xs with
  | nil =>
    intro rest after _ _ hrest
    exact ⟨after, hrest, fun c hc => ⟨[], c, .none, hc, hnil⟩⟩
  | cons x xs ih =>
    intro rest after hq ha hrest
    obtain ⟨hx, h⟩ := List.forall_mem_cons.mp h
    cases xs with
    | nil =>
      obtain ⟨kinds, hlex, hread⟩ := hx hq ha hrest
      refine ⟨kinds, by simpa using hlex, fun c hc => ?_⟩
      obtain ⟨a, c', hitem, hc', hp⟩ := hread c hc
      exact ⟨[a], c', .one hitem, hc', hcons hp hnil⟩
    | cons y ys =>
      obtain ⟨kinds, hlex, hread⟩ := ih h hq ha hrest
      obtain ⟨kinds', hlex', hread'⟩ := hx (hQ _) (hA _) (.char ',' .comma rfl trivial hlex.space)
      refine ⟨kinds', ?_, fun c hc => ?_⟩
      · rw [List.map_cons, List.map_cons, String.intercalate_cons_cons]
        simpa using hlex'
      · obtain ⟨a, c', hitem, hc', hp⟩ := hread' c hc
        obtain ⟨p, s, ts, rfl, hts⟩ := Place.kinds_eq_cons hc'
        obtain ⟨as, c'', hlist, hc'', hl⟩ := hread _ hts
        exact ⟨a :: as, c'', .more hitem hlist, hc'', hcons hp hl⟩

end

end Ascription
