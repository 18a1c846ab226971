import Ascription.Proofs.Source.Lines
import Ascription.Proofs.Token.Patterns

/-!
# Proofs/Token/Segments — a text is cut without loss

    source  =  blanks · match · blanks · match · … · blanks · rest

The lexer walks over a text from its start.  Each token has the span that the line map makes of the
offsets where its characters stand, and these are the longest match there; between them are blanks
alone.  What is left when it stops is empty, or starts with the one fault that ends the tokens.
-/

namespace Ascription

/-- **The span of the characters `cs`** behind the characters `front` at the start of a text: what
its line map makes of the offsets of the two ends. -/
def LineMap.spanOf (m : LineMap) (front cs : List Char) : Span :=
  m.span (byteLength front) (byteLength (front ++ cs))

namespace Lexer

variable {m : LineMap}

/-- **The characters between two places of a text are these lexemes**, with blanks around them.
Each lexeme is the longest match at its place, `before` being the text up to there and `rest` the
text that the lexer leaves, which starts with no blank. -/
inductive Segments (m : LineMap) : List Char → List Char → List Lexeme → List Char → Prop
  | blanks {before gap rest : List Char} (blank : ∀ c ∈ gap, isBlank c = true)
      (ends : ∀ c ∈ rest.head?, isBlank c = false) : Segments m before gap [] rest
  | token {before gap behind rest : List Char} {w : Pattern} {kind : TokenKind} {ls : List Lexeme}
      (blank : ∀ c ∈ gap, isBlank c = true) (longest : Longest w (behind ++ rest))
      (kind_eq : w.kind? = some kind)
      (others : Segments m (before ++ gap ++ w.text) behind ls rest) :
      Segments m before (gap ++ w.text ++ behind)
        (⟨w.text, kind, m.spanOf (before ++ gap) w.text⟩ :: ls) rest

/-- **How the tokens of a text end** where `before` has been read and `rest` is left. -/
inductive Ended (m : LineMap) : Option SyntaxError → List Char → List Char → Prop
  | covered {before : List Char} : Ended m none before []
  | fault {before text rest : List Char} {fault : SyntaxFault} (misspelled : Misspelled rest fault)
      (nonempty : text ≠ []) (front : text <+: rest) :
      Ended m (some ⟨fault, m.spanOf before text⟩) before rest

/-- What stands at the front of a text that starts with no blank. -/
theorem scan_cases {c : Char} {cs : List Char} (hc : isBlank c = false) :
    (∃ w rest kind, Longest w rest ∧ w.kind? = some kind ∧ c :: cs = w.text ++ rest ∧
      scan (c :: cs) = .lexeme w.text kind rest) ∨
    ∃ fault text, scan (c :: cs) = .fault fault text ∧ Misspelled (c :: cs) fault ∧
      text ≠ [] ∧ text <+: c :: cs := by
  by_cases h : ∃ v : Pattern, v.Valid ∧ v.text <+: c :: cs
  · obtain ⟨v, hv, hfront⟩ := h
    obtain ⟨w, rest, hcs, hlongest⟩ := exists_longest hv hfront
    have hscan := hlongest.scan
    rw [← hcs, Pattern.scanned] at hscan
    cases hw : w.kind? with
    | some kind =>
      rw [hw] at hscan
      exact .inl ⟨w, rest, kind, hlongest, hw, hcs, hscan⟩
    | none =>
      rw [hw] at hscan
      exact .inr ⟨_, _, hscan, hcs ▸ hlongest.misspelled hw, hlongest.valid.ne_nil, rest, hcs.symm⟩
  · exact .inr (scan_unmatched hc fun v hv hfront => h ⟨v, hv, hfront⟩)

/-- **The lexer cuts what it reads into segments**, and ends as it should. -/
theorem lexFrom_segments {fuel : Nat} : ∀ {before cs : List Char}, cs.length < fuel →
    ∃ covered rest, cs = covered ++ rest ∧
      Segments m before covered (lexFrom m fuel (byteLength before) cs).lexemes rest ∧
      Ended m (lexFrom m fuel (byteLength before) cs).failure (before ++ covered) rest := by
  induction fuel with
  | zero => exact fun h => absurd h (Nat.not_lt_zero _)
  | succ fuel ih =>
    intro before cs hfuel
    have hgap : ∀ c ∈ cs.takeWhile isBlank, isBlank c = true := of_mem_takeWhile
    have hsplit : cs = cs.takeWhile isBlank ++ cs.dropWhile isBlank :=
      List.takeWhile_append_dropWhile.symm
    have hends : ∀ c ∈ (cs.dropWhile isBlank).head?, isBlank c = false := head?_dropWhile
    rw [lexFrom, ← byteLength_append]
    generalize cs.takeWhile isBlank = gap at *
    generalize cs.dropWhile isBlank = body at *
    subst hsplit
    cases body with
    | nil => exact ⟨gap, [], rfl, .blanks hgap (by simp), .covered⟩
    | cons c body =>
      obtain ⟨w, rest, kind, hlongest, hw, hbody, hscan⟩ |
          ⟨fault, text, hscan, hfault, hne, hfront⟩ :=
        @scan_cases c body (hends c rfl)
      · have hlength : rest.length < fuel := by
          have hpos : 0 < w.text.length := List.length_pos_iff.mpr hlongest.valid.ne_nil
          rw [hbody] at hfuel
          simp only [List.length_append] at hfuel
          omega
        obtain ⟨covered, rest', rfl, hsegments, hended⟩ :=
          @ih (before ++ gap ++ w.text) rest hlength
        simp only [hscan, ← byteLength_append]
        refine ⟨gap ++ w.text ++ covered, rest', ?_, .token hgap hlongest hw hsegments, ?_⟩
        · rw [hbody, List.append_assoc, List.append_assoc]
        · rw [← List.append_assoc, ← List.append_assoc]
          exact hended
      · simp only [hscan, ← byteLength_append]
        exact ⟨gap, c :: body, rfl, .blanks hgap hends, .fault hfault hne hfront⟩

/-- What a text leaves behind its lexemes starts with no blank. -/
theorem Segments.ends {before cs rest : List Char} {ls : List Lexeme}
    (h : Segments m before cs ls rest) : ∀ c ∈ rest.head?, isBlank c = false := by
  induction h with
  | blanks _ ends => exact ends
  | token _ _ _ _ ih => exact ih

/-- The lexemes of a text are words, whatever stood behind them. -/
theorem Segments.words {before cs rest : List Char} {ls : List Lexeme}
    (h : Segments m before cs ls rest) :
    ∀ l ∈ ls, ∃ behind, Word l.text l.token.kind behind := by
  induction h with
  | blanks => exact List.forall_mem_nil _
  | token _ longest kind_eq _ ih =>
    have hscan := longest.scan
    rw [Pattern.scanned, kind_eq] at hscan
    exact List.forall_mem_cons.mpr ⟨⟨_, (word_of_scan hscan).2⟩, ih⟩

end Lexer

open Lexer

/-! ## Texts behind blanks -/

section Blanks

variable {m : LineMap} {n : Nat} {cs : List Char}

/-- **A text behind blanks**, which move its tokens along the first line. -/
def behindBlanks (n : Nat) (cs : List Char) : String := String.ofList (List.replicate n ' ' ++ cs)

theorem toList_behindBlanks : (behindBlanks n cs).toList = List.replicate n ' ' ++ cs :=
  String.toList_ofList

theorem utf8ByteSize_behindBlanks : (behindBlanks n cs).utf8ByteSize = n + byteLength cs := by
  have hsize : ' '.utf8Size = 1 := rfl
  rw [LineMap.utf8ByteSize_eq toList_behindBlanks, byteLength_replicate, hsize, Nat.mul_one]

theorem position_behindBlanks (hcs : '\n' ∉ cs) {k : Nat} :
    (LineMap.ofSource (behindBlanks n cs)).position k = ⟨1, (k + 1) % LineMap.wordSize⟩ := by
  refine LineMap.position_of_unbroken ?_
  rw [LineMap.bytes_eq, toList_behindBlanks]
  refine LineMap.lineBreak_notMem_encode fun hmem => ?_
  obtain hmem | hmem := List.mem_append.mp hmem
  · cases List.eq_of_mem_replicate hmem
  · exact hcs hmem

theorem span_behindBlanks (hcs : '\n' ∉ cs) {a b : Nat} :
    (LineMap.ofSource (behindBlanks n cs)).span a b =
      ⟨⟨1, (a + 1) % LineMap.wordSize⟩, ⟨1, (b + 1) % LineMap.wordSize⟩⟩ := by
  rw [LineMap.span, position_behindBlanks hcs, position_behindBlanks hcs]

theorem lexFrom_replicate {fuel offset : Nat} :
    lexFrom m fuel offset (List.replicate n ' ' ++ cs) = lexFrom m fuel (offset + n) cs := by
  induction n generalizing offset with
  | zero => rfl
  | succ n ih =>
    have hsize : ' '.utf8Size = 1 := rfl
    rw [List.replicate_succ, List.cons_append, lexFrom_blank rfl, ih, hsize, Nat.add_assoc,
      Nat.add_comm 1]

/-- The text behind the blanks is read from the offset where they end. -/
theorem lex_behindBlanks : lex (behindBlanks n cs) =
    lexFrom (.ofSource (behindBlanks n cs)) (n + cs.length + 1) n cs := by
  rw [lex, toList_behindBlanks, List.length_append, List.length_replicate, lexFrom_replicate,
    Nat.zero_add]

end Blanks

/-! ## The tokens of a text -/

/-- **Tokenizing is an exact segmentation.**  An error is at the offset behind what is covered: its
span is what the line map makes of that offset and a later one, and starts at the place behind what
is covered wherever offsets are words. -/
theorem lex_segments (source : String) :
    ∃ covered rest, source.toList = covered ++ rest ∧
      Segments (.ofSource source) [] covered (lex source).lexemes rest ∧
      ((lex source).failure = none ↔ rest = []) ∧
      ∀ e, (lex source).failure = some e →
        (∃ text, text ≠ [] ∧ text <+: rest ∧
          e.span = (LineMap.ofSource source).spanOf covered text) ∧
        (source.utf8ByteSize < LineMap.wordSize → e.span.start = placeAfter covered) ∧
        Misspelled rest e.fault ∧ (∀ c, e.fault ≠ .unexpectedCharacter c) ∧
          e.fault ≠ .unexpectedEnd := by
  obtain ⟨covered, rest, hsource, hsegments, hended⟩ :=
    @lexFrom_segments (.ofSource source) _ [] source.toList (Nat.lt_succ_self _)
  change Ended _ (lex source).failure covered rest at hended
  generalize (lex source).failure = failure at hended ⊢
  refine ⟨covered, rest, hsource, hsegments, ?_⟩
  cases hended with
  | covered => exact ⟨iff_of_true rfl rfl, nofun⟩
  | @fault _ text _ _ misspelled nonempty front =>
    refine ⟨iff_of_false nofun misspelled.ne_nil, ?_⟩
    rintro e ⟨⟩
    refine ⟨⟨text, nonempty, front, rfl⟩, fun hsize => ?_, misspelled, ?_, ?_⟩
    · exact LineMap.position_byteLength_of_ne_nil hsource hsize misspelled.ne_nil
    · rintro c ⟨⟩
      cases misspelled
    · rintro ⟨⟩
      cases misspelled

/-- Behind `2 ^ 32` blanks the offset of a quote that is never closed is no word, and its error is
placed at the first of the blanks. -/
theorem lex_failure_not_always_placed :
    ∃ e, (lex (behindBlanks 4294967296 ['\"'])).failure = some e ∧ e.span.start = Position.first ∧
      ¬ ∃ covered rest, (behindBlanks 4294967296 ['\"']).toList = covered ++ rest ∧
        Segments (.ofSource (behindBlanks 4294967296 ['\"'])) [] covered
          (lex (behindBlanks 4294967296 ['\"'])).lexemes rest ∧
        e.span.start = placeAfter covered := by
  have hfailure : ∀ {n}, (lex (behindBlanks n ['\"'])).failure =
      some ⟨.unterminatedString, (LineMap.ofSource (behindBlanks n ['\"'])).span n (n + 1)⟩ := by
    intro n
    rw [lex_behindBlanks]
    rfl
  have hstart : (LineMap.ofSource (behindBlanks 4294967296 ['\"'])).position 4294967296 =
      Position.first := by
    rw [position_behindBlanks (by decide)]
    rfl
  refine ⟨_, hfailure, hstart, ?_⟩
  rintro ⟨covered, rest, hsource, hsegments, hplace⟩
  -- Nothing can be covered, but then the rest starts with a blank.
  have hnil : covered = [] := by
    by_contra hne
    have hlt : Position.first < placeAfter covered := Position.lt_advanceAll hne
    rw [← hplace] at hlt
    exact absurd (hstart ▸ hlt) (lt_irrefl _)
  rw [hnil, List.nil_append, toList_behindBlanks, List.replicate_succ] at hsource
  exact absurd (hsegments.ends ' ' (hsource ▸ rfl)) (by decide)

end Ascription
