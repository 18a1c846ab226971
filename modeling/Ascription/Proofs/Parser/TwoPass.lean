import Ascription.Parser
import Ascription.Proofs.Parser.Complete.Expr
import Ascription.Proofs.Parser.Sound.Expr

/-!
# Proofs/Parser/TwoPass — one pass does the work of two

    text ──lex──▸ tokens ──grammar──▸ phrase ──second pass──▸ tree
      └───────────────────────── parse ─────────────────────────┘

The parser looks types up, resolves variables and applies the static rules while it reads.  A text
is accepted with a tree exactly when its tokens derive a phrase whose second pass gives the tree,
and there is at most one phrase to look at.
-/

namespace Ascription

open Phrase Grammar

namespace Parser

variable {α : Type} {source : String} {ds ds' : Declarations}

theorem finish_eq_done {s s' : ParserState} : finish s = .done () s' ↔ s.tokens = [] ∧ s = s' := by
  obtain ⟨tokens, f, p, ds⟩ := s
  cases tokens with
  | nil => exact pure_eq_done.trans (by simp)
  | cons t ts => exact ⟨nofun, fun h => nomatch h.1⟩

/-- **A whole text is read** when its parser leaves nothing behind. -/
theorem readAll_eq_ok {p : Parser α} {a : α} :
    readAll p source ds = .ok (a, ds') ↔ (begin (lex source) ds).Live ∧
      ∃ s, p (begin (lex source) ds) = .done a s ∧ s.tokens = [] ∧ s.declarations = ds' := by
  have hrun : ∀ {s s'}, (do let a ← p; finish; return a : Parser α) s = .done a s' ↔
      p s = .done a s' ∧ s'.tokens = [] := by
    intro s s'
    constructor
    · intro h
      obtain ⟨b, s₁, h₁, h⟩ := bind_eq_done.mp h
      obtain ⟨⟨⟩, s₂, h₂, h⟩ := bind_eq_done.mp h
      obtain ⟨ht, rfl⟩ := finish_eq_done.mp h₂
      obtain ⟨rfl, rfl⟩ := pure_eq_done.mp h
      exact ⟨h₁, ht⟩
    · rintro ⟨h₁, ht⟩
      exact bind_eq_done.mpr ⟨a, s', h₁,
        bind_eq_done.mpr ⟨(), s', finish_eq_done.mpr ⟨ht, rfl⟩, rfl⟩⟩
  rw [readAll]
  split
  case h_1 e ht hf =>
    refine ⟨nofun, fun h => ?_⟩
    cases hf.symm.trans (h.1 ht)
  case h_2 hlive =>
    have hlive : (begin (lex source) ds).Live := by
      intro ht
      cases hf : (begin (lex source) ds).failure with
      | none => rfl
      | some e => exact absurd hf (hlive e ht)
    constructor
    · intro h
      split at h
      case h_1 b rest hb =>
        cases h
        exact ⟨hlive, rest, (hrun.mp hb).1, (hrun.mp hb).2, rfl⟩
      all_goals cases h
    · rintro ⟨-, s, h, ht, rfl⟩
      rw [hrun.mpr ⟨h, ht⟩]

/-- A text that can be read to its end starts at a place. -/
theorem begin_of_tokenize {tokens : List Token} (h : tokenize source = .ok tokens) :
    begin (lex source) ds = Place.state ⟨Span.point Position.first, tokens⟩ ds := by
  rw [tokenize] at h
  split at h
  case h_1 => cases h
  case h_2 hf =>
    cases h
    rw [begin, hf]
    rfl

theorem tokenize_of_failure (h : (lex source).failure = none) :
    tokenize source = .ok (lex source).tokens := by
  rw [tokenize, h]

end Parser

open Ascription.Parser

variable {source : String} {r : Registry} {ds ds' : Declarations} {e : Expr}

/-- **The parser and the two passes accept the same texts**, with the same tree and the same
declarations. -/
theorem parseProgram_eq_ok :
    parseProgram source r ds = .ok (e, ds') ↔
      ∃ tokens, tokenize source = .ok tokens ∧ ∃ u, Derives tokens u ∧
        elaborate r u ds = .ok (e, ds') := by
  rw [parseProgram, readAll_eq_ok]
  constructor
  · rintro ⟨live, s, hs, ht, rfl⟩
    obtain ⟨leads, u, hu, he⟩ := expr_sound hs
    have hf : (lex source).failure = none := leads.failure.symm.trans (leads.live live ht)
    refine ⟨_, tokenize_of_failure hf, u, ⟨s.previous, ?_⟩, he⟩
    have hplace : s.place = ⟨s.previous, []⟩ := by rw [ParserState.place, ht]
    exact hplace ▸ hu.1
  · rintro ⟨tokens, ht, u, ⟨stop, hu⟩, he⟩
    rw [begin_of_tokenize ht]
    exact ⟨fun _ => rfl, _, exprFrom_complete _ ⟨hu, rfl⟩ (Nat.lt_succ_self _) he, rfl, rfl⟩

theorem parseWith_eq_ok :
    parseWith source r ds = .ok e ↔
      ∃ tokens, tokenize source = .ok tokens ∧ ∃ u, Derives tokens u ∧
        ∃ ds', elaborate r u ds = .ok (e, ds') := by
  rw [parseWith, Except.map_eq_ok]
  constructor
  · rintro ⟨⟨e, ds'⟩, h, rfl⟩
    obtain ⟨tokens, ht, u, hu, he⟩ := parseProgram_eq_ok.mp h
    exact ⟨tokens, ht, u, hu, ds', he⟩
  · rintro ⟨tokens, ht, u, hu, ds', he⟩
    exact ⟨(e, ds'), parseProgram_eq_ok.mpr ⟨tokens, ht, u, hu, he⟩, rfl⟩

/-- **One pass does the work of two**: reading an expression is lexing the text, deriving its tokens
in the grammar and elaborating the phrase they derive, which is unique. -/
theorem parseWith_eq_two_passes (source : String) (r : Registry) (ds : Declarations) (e : Expr) :
    (parseWith source r ds = .ok e ↔
      ∃ tokens, tokenize source = .ok tokens ∧ ∃ u, Derives tokens u ∧
        ∃ ds', elaborate r u ds = .ok (e, ds')) ∧
    ∀ tokens u v, Derives tokens u → Derives tokens v → u = v :=
  ⟨parseWith_eq_ok, fun _ _ _ hu hv => hu.unique hv⟩

end Ascription
