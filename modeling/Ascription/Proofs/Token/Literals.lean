import Ascription.Proofs.Number.Plain
import Ascription.Proofs.Token.Segments

/-!
# Proofs/Token/Literals — the text of a literal is its token

    007 ──lex──▸ 7 ──text──▸ 7 ──lex──▸ 7        999…9. ──lex──▸ ∞ ──text──▸ inf ──lex──▸ a name

What a token stands for is written as a word that is read as the same token, however the token was
spelled.  The one exception is a float with more digits than the largest double has: it is read as
infinite, and the text of an infinite number is a name.
-/

namespace Ascription

/-- The literal that a token stands for. -/
def TokenKind.literal? : TokenKind → Option Literal
  | .int n => some (.int n)
  | .float x => some (.float x)
  | .string s => some (.string s)
  | .name _ | .punct _ => none

namespace Binary64

/-- A number that is not finite is infinite. -/
theorem eq_infinity {x : Binary64} (hnan : x.isNaN = false) (hx : x.isFinite = false) :
    x = infinity x.negative := by
  have hle : x.code.val ≤ infinityCode := Nat.le_of_not_lt (of_decide_eq_false hnan)
  have hge : infinityCode ≤ x.code.val := Nat.le_of_not_lt (of_decide_eq_false hx)
  exact congrArg (Binary64.mk x.negative) (Fin.ext (Nat.le_antisymm hle hge))

end Binary64

namespace Lexer

open Numeral (isDigit)

variable {rest : List Char}

/-! ## The words of literals -/

theorem word_int {n : Int64} (h : ∀ c ∈ rest.head?, isDigit c = false ∧ c ≠ '.') :
    Word (Literal.int n).text.toList (.int n) rest := by
  obtain ⟨negative, ds, htext, hds, hall, hn⟩ := Numeral.int_text n
  rw [htext]
  exact .int hds hall hn h

theorem word_float {x : Binary64} (hx : x.isFinite = true)
    (h : ∀ c ∈ rest.head?, isDigit c = false) :
    Word (Literal.float x).text.toList (.float x) rest := by
  obtain ⟨ds, es, htext, hds, hall, hfraction, hdecimal⟩ := Numeral.float_text hx
  have hword : Word _ (.float (Numeral.decimal x.negative ds es)) rest :=
    .float hds hall hfraction h
  rwa [← htext, hdecimal] at hword

theorem word_string {s : String} (hs : '\"' ∉ s.toList) :
    Word (Literal.string s).text.toList (.string s) rest := by
  have htext : (Literal.string s).text.toList =
      '\"' :: (s.toList ++ ['\"']) := by simp [Literal.text]
  rw [htext]
  exact .string hs

/-- **What a word stands for is written as the word**, unless it is infinite. -/
theorem Word.literal {text behind : List Char} {kind : TokenKind} (h : Word text kind behind)
    {v : Literal} (hv : kind.literal? = some v)
    (hfinite : ∀ negative, v ≠ .float (.infinity negative)) : Word v.text.toList kind [] := by
  have hnan := h.isNaN_eq_false
  cases h with
  | mark => cases hv
  | name => cases hv
  | string closed =>
    cases hv
    exact word_string closed
  | int =>
    cases hv
    exact word_int nofun
  | float =>
    cases hv
    refine word_float ?_ nofun
    rw [← Bool.not_eq_false]
    exact fun hx => hfinite _ (congrArg Literal.float (Binary64.eq_infinity (hnan _ rfl) hx))

theorem infinity_text {negative : Bool} :
    (Literal.float (.infinity negative)).text.toList =
      Numeral.sign negative ++ ['i', 'n', 'f'] := by
  cases negative <;> decide +kernel

/-- **An infinite number is written as a name**, behind a minus where it is negative. -/
theorem lexes_infinity {negative : Bool} : Lexes (Literal.float (.infinity negative)).text.toList
    ((if negative then [.punct .minus] else []) ++ [.name "inf"]) := by
  have hname : Lexes ['i', 'n', 'f'] [.name "inf"] :=
    Lexes.name (n := "inf") (by decide) nofun .nil
  rw [infinity_text]
  cases negative with
  | false => exact hname
  | true =>
    have hclear : Clear .minus ['i', 'n', 'f'] := by
      rintro _ ⟨⟩
      decide
    exact .char '-' .minus rfl hclear hname

end Lexer

open Lexer

/-- **A literal token is read from the text of its literal.**  Of every number and string among the
tokens of a text the text is one token, the same; but an infinite float reads as a name. -/
theorem lex_literal_text {source : String} {t : Token} {v : Literal} (ht : t ∈ (lex source).tokens)
    (hv : t.kind.literal? = some v) :
    ((∀ negative, v ≠ .float (.infinity negative)) →
        ∃ span, tokenize v.text = .ok [⟨t.kind, span⟩]) ∧
      ∀ negative, v = .float (.infinity negative) → ∃ tokens, tokenize v.text = .ok tokens ∧
        tokens.map Token.kind = (if negative then [.punct .minus] else []) ++ [.name "inf"] := by
  obtain ⟨covered, rest, -, hsegments, -⟩ := lex_segments source
  obtain ⟨l, hl, rfl⟩ := List.mem_map.mp ht
  obtain ⟨behind, hword⟩ := hsegments.words l hl
  refine ⟨fun hfinite => ?_, ?_⟩
  · have hlexes : Lexes v.text.toList [l.token.kind] := by
      simpa using Lexes.cons (hword.literal hv hfinite) .nil
    obtain ⟨tokens, htokens, hkinds⟩ := hlexes.tokenize
    obtain ⟨⟨kind, span⟩, rfl, rfl⟩ := List.map_eq_singleton_iff.mp hkinds
    exact ⟨span, htokens⟩
  · rintro negative rfl
    exact lexes_infinity.tokenize

/-- A negative zero keeps its sign, though not its digits. -/
theorem lex_literal_text_zero :
    let t : Token := ⟨.float (.zero true), ⟨⟨1, 3⟩, ⟨1, 7⟩⟩⟩
    t ∈ (lex "x:-00.").tokens ∧ ∃ span, tokenize "-0.0" = .ok [⟨.float (.zero true), span⟩] := by
  intro t
  have ht : t ∈ (lex "x:-00.").tokens := by decide +kernel
  have htext : (Literal.float (.zero true)).text = "-0.0" := by decide +kernel
  have hread := (lex_literal_text ht rfl).1 (by decide +kernel)
  rw [htext] at hread
  exact ⟨ht, hread⟩

/-- **Not every literal token is read from its text**: a float of 309 nines is infinite. -/
theorem lex_not_every_literal_text : ¬ ∀ (source : String) (t : Token) (v : Literal),
    t ∈ (lex source).tokens → t.kind.literal? = some v →
      ∃ t' w, tokenize v.text = .ok [t'] ∧ t'.kind.literal? = some w ∧ w.equal v = true := by
  intro h
  let nines : List Char := List.replicate 309 '9'
  have hlarge : Numeral.decimal false nines [] = .infinity false := by decide +kernel
  have hlexes : Lexes (String.ofList (nines ++ ['.'])).toList [.float (.infinity false)] := by
    have hnines : ∀ c ∈ nines, Numeral.isDigit c = true := by
      intro c hc
      rw [List.eq_of_mem_replicate hc]
      rfl
    have hfloat := @Lexes.float [] [] false nines [] (by decide +kernel) hnines nofun nofun .nil
    rw [hlarge] at hfloat
    rw [String.toList_ofList]
    simpa [Numeral.sign] using hfloat
  obtain ⟨tokens, htokens, hkinds⟩ := hlexes.tokenize
  obtain ⟨t, rfl, ht⟩ := List.map_eq_singleton_iff.mp hkinds
  have hmem : t ∈ (lex (String.ofList (nines ++ ['.']))).tokens := by
    rw [tokens_of_tokenize htokens]
    exact List.mem_singleton_self t
  obtain ⟨t', w, hread, hw, -⟩ := h _ t (.float (.infinity false)) hmem (by rw [ht]; rfl)
  obtain ⟨tokens', htokens', hname⟩ := (@lexes_infinity false).tokenize
  rw [hread] at htokens'
  cases htokens'
  obtain hname : t'.kind = .name "inf" := (List.cons.inj hname).1
  rw [hname] at hw
  cases hw

end Ascription
