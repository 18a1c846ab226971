import Ascription.Proofs.Parser.TwoPass

/-!
# Proofs/Parser/Type — reading a text that is a type

    text ──lex──▸ tokens ──grammar──▸ written type ──resolve──▸ type

The grammar says nothing about names: a text whose tokens are those of a written type is refused,
if at all, for its types.
-/

namespace Ascription

open Phrase Grammar Ascription.Parser

/-- **A whole token list derives a written type.** -/
def Grammar.DerivesType (tokens : List Token) (w : TypeExpr) : Prop :=
  ∃ stop, TypeName ⟨Span.point Position.first, tokens⟩ w ⟨stop, []⟩

variable {source : String} {tokens : List Token} {r : Registry} {w : TypeExpr} {t : Ty}

/-- **A text is read as the type** that its tokens derive and the registry knows. -/
theorem parseType_eq_ok : parseType source r = .ok t ↔
    ∃ tokens, tokenize source = .ok tokens ∧ ∃ w, DerivesType tokens w ∧ r.resolve w = .ok t := by
  rw [parseType, Except.map_eq_ok]
  constructor
  · rintro ⟨⟨t, ds⟩, hread, rfl⟩
    obtain ⟨live, s, hs, hempty, -⟩ := readAll_eq_ok.mp hread
    obtain ⟨leads, w, hw, ht⟩ := type_sound hs
    have hf : (lex source).failure = none := leads.failure.symm.trans (leads.live live hempty)
    have hplace : s.place = ⟨s.previous, []⟩ := by rw [ParserState.place, hempty]
    exact ⟨_, tokenize_of_failure hf, w, ⟨s.previous, hplace ▸ hw⟩, (resolved_eq_ok.mp ht).1⟩
  · rintro ⟨tokens, htokens, w, ⟨stop, hw⟩, ht⟩
    have hresolved : resolved r w [] = .ok (t, []) := resolved_eq_ok.mpr ⟨ht, rfl⟩
    have hs := type_complete hw (Nat.lt_succ_self _) hresolved
    rw [← begin_of_tokenize htokens] at hs
    have hlive : (begin (lex source) []).Live := by
      rw [begin_of_tokenize htokens]
      exact fun _ => rfl
    exact ⟨(t, []), readAll_eq_ok.mpr ⟨hlive, _, hs, rfl, rfl⟩, rfl⟩

/-- **A written type is refused for its types only.** -/
theorem parseType_eq_error (htokens : tokenize source = .ok tokens) (hw : DerivesType tokens w)
    {e : TypeError} (he : r.resolve w = .error e) : parseType source r = .error (.illTyped e) := by
  obtain ⟨stop, hw⟩ := hw
  have hread : typeExpr (begin (lex source) []) = .done w (Place.state ⟨stop, []⟩ []) := by
    rw [begin_of_tokenize htokens]
    exact typeFrom_complete _ hw (Nat.lt_succ_self _) rfl
  have hrun : (do let t ← Parser.type r; finish; return t : Parser Ty) (begin (lex source) []) =
      .failed (.illTyped e) := by
    simp only [bind, Parser.type, hread, he, judge, fail]
  rw [parseType, readAll]
  split
  case h_1 _ hf =>
    rw [begin_of_tokenize htokens] at hf
    cases hf
  case h_2 =>
    rw [hrun]
    rfl

end Ascription
