import Ascription.Parser
import Ascription.Proofs.Parser.Takes.Expr
import Ascription.Proofs.Token.Spans

/-!
# Proofs/Parser/Located — where the errors of a text point

    the failure of the lexer        the end of the last token        from a token to a later one

Every refusal is one of these three.  Later tokens start at later places, so spans of tokens merge
to spans from one token to another, in whatever order the parts are merged; where they end does
not matter for that.  The end of the last token may be a place that wraps, but only in its column:
the token is no line break.
-/

namespace Ascription

open LineMap (wordSize)
open Lexer (isBlank)

variable {source : String}

/-! ## From token to token -/

namespace Span

variable {tokens : List Token} {a b s : Span}

/-- **From where a token starts to where it or a later one ends.** -/
def Across (tokens : List Token) (s : Span) : Prop :=
  ∃ (i j : Nat) (t u : Token), i ≤ j ∧ tokens[i]? = some t ∧ tokens[j]? = some u ∧
    s = ⟨t.span.start, u.span.stop⟩

theorem Across.token {t : Token} (h : t ∈ tokens) : Across tokens t.span := by
  obtain ⟨i, hi⟩ := List.mem_iff_getElem?.mp h
  exact ⟨i, i, t, t, Nat.le_refl i, hi, hi, rfl⟩

/-- Two such spans merge to the one around them, in any order. -/
theorem Across.merge (hstart : tokens.Pairwise fun t u => t.span.start < u.span.start)
    (ha : Across tokens a) (hb : Across tokens b) : Across tokens (merge a b) := by
  have hle : ∀ {i k : Nat} {t v : Token}, tokens[i]? = some t → tokens[k]? = some v →
      t.span.start ≤ v.span.start → i ≤ k := by
    intro i k t v hi hk hle
    by_contra hlt
    obtain ⟨hilt, rfl⟩ := List.getElem?_eq_some_iff.mp hi
    obtain ⟨hklt, rfl⟩ := List.getElem?_eq_some_iff.mp hk
    have hlt := List.pairwise_iff_getElem.mp hstart k i hklt hilt (Nat.lt_of_not_le hlt)
    exact absurd hle (not_le_of_gt hlt)
  obtain ⟨i, j, t, u, hij, hi, hj, rfl⟩ := ha
  obtain ⟨k, l, v, w, hkl, hk, hl, rfl⟩ := hb
  rw [Span.merge, Position.earlier, Position.later]
  dsimp only
  by_cases hstart : t.span.start ≤ v.span.start
  · have hik : i ≤ k := hle hi hk hstart
    rw [if_pos (Position.le_def.mp hstart)]
    split
    · exact ⟨i, l, t, w, Nat.le_trans hik hkl, hi, hl, rfl⟩
    · exact ⟨i, j, t, u, hij, hi, hj, rfl⟩
  · have hki : k ≤ i := hle hk hi (le_of_lt (lt_of_not_ge hstart))
    rw [if_neg (Position.le_def.not.mp hstart)]
    split
    · exact ⟨k, l, v, w, hkl, hk, hl, rfl⟩
    · exact ⟨k, j, v, u, Nat.le_trans hki hij, hk, hj, rfl⟩

end Span

/-- **Later tokens of a text start at later places**, up to a failure too. -/
theorem pairwise_start_lex (hsize : source.utf8ByteSize < wordSize) :
    (lex source).tokens.Pairwise fun t u => t.span.start < u.span.start := by
  obtain ⟨hi, hle, hoffsets, -⟩ := @lex_offsets source
  exact hoffsets.pairwise_start fun a b hab hb => LineMap.position_lt hsize hab (by omega)
    (LineMap.position_of_lt hsize (by omega))

/-! ## What a text may be blamed with -/

/-- The place just past the last token, or where the text starts if there is none. -/
def Lexed.stop (l : Lexed) : Position :=
  (l.tokens.getLast?.map fun t => t.span.stop).getD Position.first

/-- **The errors of a text**: that of the lexer, a wanted token where none is left, and what is said
of a stretch of tokens. -/
inductive Blamed (l : Lexed) : ParseError → Prop
  | lexical {f} (failure : l.failure = some f) : Blamed l (.malformed f)
  | ended {what} (whole : l.failure = none) :
      Blamed l (.malformed ⟨.expected what none, Span.point l.stop⟩)
  | across {e : ParseError} (span : e.span.Across l.tokens) : Blamed l e

/-- A text whose tokens start one behind the other is blamed from token to token. -/
def Blame.ofLexed (l : Lexed) (h : l.tokens.Pairwise fun t u => t.span.start < u.span.start) :
    Blame where
  spans := Span.Across l.tokens
  errors := Blamed l
  merge := Span.Across.merge h
  located _ := .across

/-- **What a text of these tokens may be blamed with**: each token, the failure that ends them, and
the place where they end. -/
structure Blame.Covers (B : Blame) (l : Lexed) : Prop where
  tokens : ∀ t ∈ l.tokens, B.spans t.span
  lexical : ∀ f, l.failure = some f → B.errors (.malformed f)
  ended : l.failure = none → ∀ what, what ≠ .punct .tripleEquals →
    B.errors (.malformed ⟨.expected what none, Span.point l.stop⟩)

theorem Blame.covers_ofLexed {l : Lexed}
    (h : l.tokens.Pairwise fun t u => t.span.start < u.span.start) : (ofLexed l h).Covers l where
  tokens _ := .token
  lexical _ := .lexical
  ended hf _ _ := .ended hf

namespace Parser

variable {α : Type} {ds : Declarations}

theorem stands_begin {B : Blame} (hB : B.Covers (lex source))
    (hlive : (begin (lex source) ds).Live) : (begin (lex source) ds).Stands B where
  live := hlive
  tokens := hB.tokens
  failure := hB.lexical
  ended hf what hwhat := by
    have hfinal : (begin (lex source) ds).final = (lex source).stop := by
      rw [ParserState.final, Lexed.stop, begin]
      cases (lex source).tokens.getLast? <;> rfl
    rw [hfinal]
    exact hB.ended hf what hwhat

theorem finish_keeps {B : Blame} {n : Nat} : Keeps B n (fun _ => True) finish := by
  intro k hk s hs
  obtain ⟨tokens, f, p, ds⟩ := s
  cases tokens with
  | nil => exact .done ⟨hs, trivial⟩
  | cons t ts => exact .failed (B.located .trailing (hs.stands.tokens t List.mem_cons_self))

/-- What takes tokens takes them up to the end of the text. -/
theorem whole_takes {B : Blame} {n : Nat} {p : Parser α} {R : α → Prop} (hp : Takes B n R p) :
    Takes B n R (do let a ← p; finish; return a) :=
  hp.bind fun _ ha => finish_keeps.bind fun _ _ => .pure ha

/-- **A text that is not read is blamed**, whatever takes its tokens. -/
theorem readAll_blamed {B : Blame} (hB : B.Covers (lex source)) {p : Parser α} {R : α → Prop}
    {e : ParseError} (hp : ∀ n, Takes B n R p) (h : readAll p source ds = .error e) :
    B.errors e := by
  rw [readAll] at h
  split at h
  case h_1 f ht hf =>
    cases h
    exact hB.lexical f hf
  case h_2 hlive =>
    have hlive : (begin (lex source) ds).Live := by
      intro ht
      cases hf : (begin (lex source) ds).failure with
      | none => rfl
      | some f => exact absurd hf (hlive f ht)
    have hread := whole_takes (hp _) _ (stands_begin hB hlive) (Nat.lt_succ_self _)
    generalize (do let a ← p; finish; return a : Parser α) (begin (lex source) ds) =
      reply at h hread
    cases hread with
    | done => cases h
    | failed error =>
      cases h
      exact error

end Parser

/-! ## Places in a text -/

/-- **The last token ends where the blanks at the end of the text start**, or the text starts
there. -/
theorem stop_lex (hsize : source.utf8ByteSize < wordSize) (h : (lex source).failure = none) :
    (lex source).stop = (placeAfter (source.toList.rdropWhile isBlank)).word := by
  obtain ⟨hi, -, hoffsets, hwhole⟩ := @lex_offsets source
  obtain ⟨gap, hgap⟩ := source.toList.rdropWhile_prefix isBlank
  rw [Lexed.stop, ← position_zero hsize, hoffsets.stop_eq, hwhole h,
    LineMap.position_byteLength hgap.symm hsize]

/-- A text that does not end in a blank has fewer lines than bytes. -/
theorem line_placeAfter_lt (hsize : source.utf8ByteSize < wordSize) :
    (placeAfter (source.toList.rdropWhile isBlank)).line < wordSize := by
  obtain ⟨gap, hgap⟩ := source.toList.rdropWhile_prefix isBlank
  have hlength := LineMap.utf8ByteSize_eq hgap.symm
  have hlast := @List.rdropWhile_last_not _ isBlank source.toList
  generalize source.toList.rdropWhile isBlank = trimmed at *
  rw [placeAfter, ← Position.passAll_encode, LineMap.passAll_first]
  dsimp only
  by_cases hnil : trimmed = []
  · rw [hnil]
    decide
  · have hchar : trimmed.getLast hnil ≠ '\n' := fun hbreak => hlast hnil (hbreak ▸ rfl)
    obtain ⟨b, hb, hne⟩ := LineMap.exists_mem_encode (List.getLast_mem hnil) hchar
    have hcount : (LineMap.encode trimmed).count LineMap.lineBreak <
        (LineMap.encode trimmed).length := by
      refine Nat.lt_of_le_of_ne List.count_le_length fun heq => hne ?_
      exact (List.count_eq_length.mp heq b hb).symm
    rw [LineMap.length_encode] at hcount
    omega

theorem Span.isSynthetic_eq_false {s : Span} (h : Position.first ≤ s.start) :
    s.isSynthetic = false := by
  rw [Position.le_iff] at h
  rw [isSynthetic, beq_eq_false_iff_ne]
  rintro hline
  simp [hline, Position.first] at h

/-- No error of a text is synthetic. -/
theorem Blamed.isSynthetic_eq_false {e : ParseError} (hsize : source.utf8ByteSize < wordSize)
    (h : Blamed (lex source) e) : e.span.isSynthetic = false := by
  cases h with
  | @lexical f failure =>
    obtain ⟨covered, rest, -, -, -, hfailure⟩ := lex_segments source
    refine Span.isSynthetic_eq_false ?_
    change Position.first ≤ f.span.start
    rw [(hfailure f failure).2.1 hsize]
    exact Position.le_advanceAll
  | ended whole =>
    have hpos : 0 < (placeAfter (source.toList.rdropWhile isBlank)).line := by
      rw [placeAfter, ← Position.passAll_encode, LineMap.passAll_first]
      exact Nat.succ_pos _
    change ((lex source).stop.line == 0) = false
    rw [stop_lex hsize whole, beq_eq_false_iff_ne, Position.word,
      Nat.mod_eq_of_lt (line_placeAfter_lt hsize)]
    exact hpos.ne'
  | across span =>
    obtain ⟨_, _, t, _, -, ht, -, hspan⟩ := span
    obtain ⟨hi, hle, hoffsets, -⟩ := @lex_offsets source
    obtain ⟨start, -, hlt, hstart⟩ := hoffsets.start_eq t (List.mem_of_getElem? ht)
    refine Span.isSynthetic_eq_false ?_
    rw [hspan, hstart, LineMap.position_of_lt hsize (by omega)]
    exact Position.le_passAll

/-- **An error points where the text is wrong**, whatever types and variables a host brings along:
at what the lexer cannot read; just past the last token, where the grammar wants another; or from
the start of a token to the end of that one or a later one.  So it is never synthetic.  The place
past the last token is a pair of words, as all places are. -/
theorem parseWith_error_located {r : Registry} {ds : Declarations} {e : ParseError}
    (hsize : source.utf8ByteSize < wordSize) (h : parseWith source r ds = .error e) :
    e.span.isSynthetic = false ∧
      ((∃ f, (lex source).failure = some f ∧ e = .malformed f) ∨
        ((lex source).failure = none ∧
          (lex source).stop = (placeAfter (source.toList.rdropWhile isBlank)).word ∧
          ∃ what, e = .malformed ⟨.expected what none, Span.point (lex source).stop⟩) ∨
        ∃ (i j : Nat) (a b : Token), i ≤ j ∧ (lex source).tokens[i]? = some a ∧
          (lex source).tokens[j]? = some b ∧ e.span = ⟨a.span.start, b.span.stop⟩) := by
  have hblamed : Blamed (lex source) e :=
    Parser.readAll_blamed (Blame.covers_ofLexed (pairwise_start_lex hsize))
      (fun _ => Parser.Takes.expr) (Except.map_eq_error.mp h)
  refine ⟨hblamed.isSynthetic_eq_false hsize, ?_⟩
  cases hblamed with
  | lexical failure => exact .inl ⟨_, failure, rfl⟩
  | ended whole => exact .inr (.inl ⟨whole, stop_lex hsize whole, _, rfl⟩)
  | across span => exact .inr (.inr span)

/-- A variable of the host that the text declares again, and an operator without its
operand: the first is blamed where it is declared again, the second at the end of the last
token, not of the text. -/
theorem parseWith_error_located_redeclared :
    (∃ e, parseWith "declare\n  x: int x" .initial [⟨"x", .int, Span.synthetic⟩] = .error e ∧
      e.span = ⟨⟨2, 3⟩, ⟨2, 4⟩⟩ ∧ e.span.isSynthetic = false) ∧
    ∃ e, parseWith "a:int -   " .initial [] = .error e ∧ e.span = Span.point ⟨1, 8⟩ ∧
      e.span.isSynthetic = false := by
  have hspan : (Except.error? (parseWith "declare\n  x: int x" .initial
      [⟨"x", .int, Span.synthetic⟩])).map ParseError.span = some ⟨⟨2, 3⟩, ⟨2, 4⟩⟩ := by
    decide +kernel
  have hspan' : (Except.error? (parseWith "a:int -   " .initial [])).map ParseError.span =
      some (Span.point ⟨1, 8⟩) := by
    decide +kernel
  obtain ⟨e, he, hspan⟩ := Option.map_eq_some_iff.mp hspan
  obtain ⟨e', he', hspan'⟩ := Option.map_eq_some_iff.mp hspan'
  have hlocated := parseWith_error_located (by decide) (Except.error?_eq_some.mp he)
  have hlocated' := parseWith_error_located (by decide) (Except.error?_eq_some.mp he')
  exact ⟨⟨e, Except.error?_eq_some.mp he, hspan, hlocated.1⟩,
    e', Except.error?_eq_some.mp he', hspan', hlocated'.1⟩

/-- In `2 ^ 32 - 1` bytes without a line break the place past the last token has column zero, which
is no column of a text. -/
theorem parseWith_error_not_always_located :
    (behindBlanks 4294967293 ['1', '-']).utf8ByteSize < wordSize ∧
    ∃ e, parseWith (behindBlanks 4294967293 ['1', '-']) .initial [] = .error e ∧
      e.span = Span.point ⟨1, 0⟩ ∧
      ¬ ((∃ f, (lex (behindBlanks 4294967293 ['1', '-'])).failure = some f ∧ e = .malformed f) ∨
        e.span = Span.point
          (placeAfter ((behindBlanks 4294967293 ['1', '-']).toList.rdropWhile isBlank)) ∨
        ∃ (i j : Nat) (a b : Token), i ≤ j ∧
          (lex (behindBlanks 4294967293 ['1', '-'])).tokens[i]? = some a ∧
          (lex (behindBlanks 4294967293 ['1', '-'])).tokens[j]? = some b ∧
          e.span = ⟨a.span.start, b.span.stop⟩) := by
  have hoffsets : ∀ {n}, let m := LineMap.ofSource (behindBlanks n ['1', '-'])
      lex (behindBlanks n ['1', '-']) =
        ⟨[⟨['1'], .int 1, m.span n (n + 1)⟩, ⟨['-'], .punct .minus, m.span (n + 1) (n + 2)⟩],
          none⟩ := by
    intro n m
    rw [lex_behindBlanks]
    rfl
  have hlex : lex (behindBlanks 4294967293 ['1', '-']) =
      ⟨[⟨['1'], .int 1, ⟨⟨1, 4294967294⟩, ⟨1, 4294967295⟩⟩⟩,
        ⟨['-'], .punct .minus, ⟨⟨1, 4294967295⟩, ⟨1, 0⟩⟩⟩], none⟩ := by
    rw [hoffsets]
    simp only [span_behindBlanks (show '\n' ∉ ['1', '-'] by decide)]
    rfl
  have hparse : parseWith (behindBlanks 4294967293 ['1', '-']) .initial [] =
      .error (.malformed ⟨.expected .expression none, Span.point ⟨1, 0⟩⟩) := by
    rw [parseWith, parseProgram, Parser.readAll, hlex]
    rfl
  refine ⟨?size, _, hparse, rfl, ?_⟩
  case size =>
    rw [utf8ByteSize_behindBlanks]
    decide
  rintro (⟨f, hf, -⟩ | hplace | ⟨i, _, a, _, -, ha, -, hspan⟩)
  · rw [hlex] at hf
    cases hf
  · have hle : Position.first ≤
        placeAfter ((behindBlanks 4294967293 ['1', '-']).toList.rdropWhile isBlank) :=
      Position.le_advanceAll
    rw [← (Span.mk.inj hplace).1] at hle
    exact absurd hle (by decide)
  · have hstart : ∀ t ∈ (lex (behindBlanks 4294967293 ['1', '-'])).tokens,
        t.span.start ≠ ⟨1, 0⟩ := by
      rw [hlex]
      decide
    exact hstart a (List.mem_of_getElem? ha) (Span.mk.inj hspan).1.symm

end Ascription
