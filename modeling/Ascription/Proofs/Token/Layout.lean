import Ascription.Proofs.Token.Spans
import Mathlib.Data.List.Forall2

/-!
# Proofs/Token/Layout — blanks between tokens do not matter

    source   a.b:int    ──slices──▸   a  .  b  :  int   ──any layout──▸   a .b
                                                                           : int

A token looks at no more than the character behind itself, and a blank there ends every token.  So a
slice that was read with something else behind it is read as the same token with a blank behind it.
-/

namespace Ascription

/-- **A slice of a text**: characters of it, at the offsets of which the line map makes the span. -/
def IsSlice (source : String) (span : Span) (cs : List Char) : Prop :=
  ∃ front behind, source.toList = front ++ cs ++ behind ∧
    span = (LineMap.ofSource source).spanOf front cs

namespace Lexer

/-- A run of blanks. -/
def Blank (gap : List Char) : Prop := ∀ c ∈ gap, isBlank c = true

instance : DecidablePred Blank := fun _ => decidable_of_iff _ List.all_eq_true

/-- **Spellings with a gap behind each**, which is not empty where another spelling follows. -/
inductive Spaced : List (List Char) → List Char → Prop
  | nil : Spaced [] []
  | cons {word gap : List Char} {words : List (List Char)} {cs : List Char} (blank : Blank gap)
      (apart : words ≠ [] → gap ≠ []) (others : Spaced words cs) :
      Spaced (word :: words) (word ++ gap ++ cs)

/-- **A layout of spellings**: a gap, and the spellings with a gap behind each. -/
def Laid (words : List (List Char)) (cs : List Char) : Prop :=
  ∃ gap body, Blank gap ∧ Spaced words body ∧ cs = gap ++ body

variable {cs gap : List Char} {ks : List TokenKind}

/-- Blanks before a text hold no words. -/
theorem Lexes.blanks (hgap : Blank gap) (h : Lexes cs ks) : Lexes (gap ++ cs) ks := by
  induction gap with
  | nil => exact h
  | cons c gap ih =>
    obtain ⟨hc, hgap⟩ := List.forall_mem_cons.mp hgap
    exact .blank hc (ih hgap)

/-- **Words with gaps behind them are read again.** -/
theorem Spaced.lexes {ls : List Lexeme} (h : Spaced (ls.map Lexeme.text) cs)
    (hwords : ∀ l ∈ ls, ∃ behind, Word l.text l.token.kind behind) :
    Lexes cs (ls.map fun l => l.token.kind) := by
  induction ls generalizing cs with
  | nil =>
    cases h
    exact .nil
  | cons l ls ih =>
    obtain ⟨⟨behind, hword⟩, hwords⟩ := List.forall_mem_cons.mp hwords
    rw [List.map_cons] at h
    cases h with
    | @cons _ gap _ body blank apart others =>
      have hhead : ∀ c ∈ (gap ++ body).head?, isBlank c = true := by
        cases gap with
        | cons c gap =>
          rintro _ ⟨⟩
          exact blank c List.mem_cons_self
        | nil =>
          have hnil : ls.map Lexeme.text = [] := by
            by_contra hne
            exact apart hne rfl
          rw [hnil] at others
          cases others
          exact nofun
      rw [List.append_assoc]
      exact .cons (hword.ended hhead) (.blanks blank (ih others hwords))

end Lexer

open Lexer

/-- The spelling of a lexeme is the slice at its span. -/
theorem isSlice_of_mem_lexemes {source : String} :
    ∀ l ∈ (lex source).lexemes, IsSlice source l.token.span l.text := by
  obtain ⟨covered, rest, hsource, hsegments, -⟩ := lex_segments source
  intro l hl
  obtain ⟨front, behind, hsplit, hspan⟩ := hsegments.spans l hl
  exact ⟨front, behind, hsource.trans hsplit, hspan⟩

/-- **The tokens of a text do not depend on its layout**: the slices of its tokens, with any blanks
before, between and behind them, but at least one between two, have the same tokens again. -/
theorem tokenize_laid {source : String} {tokens : List Token} (h : tokenize source = .ok tokens) :
    List.Forall₂ (fun t cs => IsSlice source t.span cs) tokens
        ((lex source).lexemes.map Lexeme.text) ∧
      ∀ relaid : String, Laid ((lex source).lexemes.map Lexeme.text) relaid.toList →
        ∃ tokens', tokenize relaid = .ok tokens' ∧
          tokens'.map Token.kind = tokens.map Token.kind := by
  obtain rfl : (lex source).lexemes.map Lexeme.token = tokens := tokens_of_tokenize h
  refine ⟨?_, ?_⟩
  · rw [List.forall₂_map_left_iff, List.forall₂_map_right_iff, List.forall₂_same]
    exact isSlice_of_mem_lexemes
  · rintro relaid ⟨gap, body, hgap, hspaced, hrelaid⟩
    obtain ⟨covered, rest, -, hsegments, -⟩ := lex_segments source
    have hlexes : Lexes relaid.toList ((lex source).lexemes.map fun l => l.token.kind) :=
      hrelaid ▸ .blanks hgap (hspaced.lexes hsegments.words)
    obtain ⟨tokens', htokens', hkinds⟩ := hlexes.tokenize
    refine ⟨tokens', htokens', ?_⟩
    rw [hkinds, List.map_map]
    rfl

/-- Two signs of which one is a number's, a point with no digits behind it, and a blank in a
string. -/
theorem tokenize_laid_signs :
    let source := "a- -1.|\"b c\""
    let relaid := "\n\ta\x0c- -1.\r\n|  \"b c\" "
    ∃ tokens tokens', tokenize source = .ok tokens ∧ tokenize relaid = .ok tokens' ∧
      tokens.length = 5 ∧ tokens'.map Token.kind = tokens.map Token.kind := by
  intro source relaid
  have hsource : tokenize source = .ok (lex source).tokens := by decide +kernel
  have hslices : (lex source).lexemes.map Lexeme.text =
      [['a'], ['-'], ['-', '1', '.'], ['|'], ['\"', 'b', ' ', 'c', '\"']] := by decide +kernel
  have hspaced := @Spaced.cons ['a'] ['\x0c'] _ _ (by decide) nofun <|
    @Spaced.cons ['-'] [' '] _ _ (by decide) nofun <|
    @Spaced.cons ['-', '1', '.'] ['\r', '\n'] _ _ (by decide) nofun <|
    @Spaced.cons ['|'] [' ', ' '] _ _ (by decide) nofun <|
    @Spaced.cons ['\"', 'b', ' ', 'c', '\"'] [' '] _ _ (by decide) nofun .nil
  have hlaid : Laid ((lex source).lexemes.map Lexeme.text) relaid.toList :=
    ⟨['\n', '\t'], _, by decide, hslices ▸ hspaced, by decide +kernel⟩
  obtain ⟨tokens', hrelaid, hkinds⟩ := (tokenize_laid hsource).2 relaid hlaid
  exact ⟨_, tokens', hsource, hrelaid, by decide +kernel, hkinds⟩

end Ascription
