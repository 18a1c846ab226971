import Ascription.Proofs.Token.Segments

/-!
# Proofs/Token/Spans — tokens stand one behind the other

    lo  ≤  start₁ < stop₁  ≤  start₂ < stop₂  ≤  …  <  stopₙ  =  hi

A token takes at least one character, so it ends at a later offset than it starts, and at or
before the offset where the next one starts.  The line map keeps the order of offsets where no
place wraps.  Of the offsets of tokens only the last can have such a place, and only if it is the
end of the longest texts.
-/

namespace Ascription

open Lexer

variable {m : LineMap} {lo hi : Nat} {ts : List Token} {source : String} {tokens : List Token}

/-- **Tokens in reading order**, from a place on. -/
def InOrder : Position → List Token → Prop
  | _, [] => True
  | p, t :: ts => p ≤ t.span.start ∧ t.span.start < t.span.stop ∧ InOrder t.span.stop ts

/-! ## Offsets -/

/-- **Tokens one behind the other** from one offset to another, which is where the last of them
ends. -/
inductive Offsets (m : LineMap) : Nat → List Token → Nat → Prop
  | nil {lo : Nat} : Offsets m lo [] lo
  | cons {lo start stop hi : Nat} {kind : TokenKind} {ts : List Token} (le : lo ≤ start)
      (lt : start < stop) (others : Offsets m stop ts hi) :
      Offsets m lo (⟨kind, m.span start stop⟩ :: ts) hi

namespace Offsets

theorem le (h : Offsets m lo ts hi) : lo ≤ hi := by
  induction h with
  | nil => exact Nat.le_refl _
  | cons le lt _ ih => exact Nat.le_trans le (Nat.le_trans lt.le ih)

/-- Each token starts at an offset before the last. -/
theorem start_eq (h : Offsets m lo ts hi) :
    ∀ t ∈ ts, ∃ start, lo ≤ start ∧ start < hi ∧ t.span.start = m.position start := by
  induction h with
  | nil => exact List.forall_mem_nil _
  | cons le lt others ih =>
    refine List.forall_mem_cons.mpr ⟨⟨_, le, Nat.lt_of_lt_of_le lt others.le, rfl⟩, fun t ht => ?_⟩
    obtain ⟨start, hle, hlt, hstart⟩ := ih t ht
    exact ⟨start, Nat.le_trans le (Nat.le_trans lt.le hle), hlt, hstart⟩

/-- The last offset is where the last token ends. -/
theorem stop_eq (h : Offsets m lo ts hi) :
    (ts.getLast?.map fun t => t.span.stop).getD (m.position lo) = m.position hi := by
  induction h with
  | nil => rfl
  | @cons _ _ stop _ _ ts _ _ _ ih =>
    rw [← ih, List.getLast?_cons]
    cases ts.getLast? <;> rfl

/-- **Later tokens start at later places**, if no place before the last offset wraps. -/
theorem pairwise_start (h : Offsets m lo ts hi)
    (hmono : ∀ a b, a < b → b < hi → m.position a < m.position b) :
    ts.Pairwise fun t u => t.span.start < u.span.start := by
  induction h with
  | nil => exact .nil
  | cons _ lt others ih =>
    refine .cons (fun t ht => ?_) (ih hmono)
    obtain ⟨start, hle, hlt, hstart⟩ := others.start_eq t ht
    rw [hstart]
    exact hmono _ _ (Nat.lt_of_lt_of_le lt hle) hlt

/-- **Tokens at ascending offsets are in reading order**, if no place up to the last offset
wraps. -/
theorem inOrder (h : Offsets m lo ts hi)
    (hmono : ∀ a b, a < b → b ≤ hi → m.position a < m.position b) :
    InOrder (m.position lo) ts := by
  induction h with
  | nil => trivial
  | @cons lo start _ _ _ _ le lt others ih =>
    have hle : m.position lo ≤ m.position start := by
      obtain hlt | rfl := Nat.lt_or_eq_of_le le
      · exact le_of_lt (hmono _ _ hlt (Nat.le_trans lt.le others.le))
      · exact le_refl _
    exact ⟨hle, hmono _ _ lt others.le, ih hmono⟩

end Offsets

/-! ## The tokens of a text -/

theorem rdropWhile_append {α : Type} {p : α → Bool} {xs ys : List α}
    (h : xs.rdropWhile p = xs) : (xs ++ ys).rdropWhile p = xs ++ ys.rdropWhile p := by
  induction ys using List.reverseRecOn with
  | nil => rw [List.rdropWhile_nil, List.append_nil, h]
  | append_singleton ys y ih =>
    rw [← List.append_assoc]
    by_cases hy : p y = true
    · rw [List.rdropWhile_concat_pos _ _ _ hy, List.rdropWhile_concat_pos _ _ _ hy, ih]
    · rw [List.rdropWhile_concat_neg _ _ _ hy, List.rdropWhile_concat_neg _ _ _ hy,
        List.append_assoc]

/-- **The lexemes of a text stand at ascending offsets**, the last of them being where its
blanks at the end start. -/
theorem Lexer.Segments.offsets {before cs rest : List Char} {ls : List Lexeme}
    (h : Segments m before cs ls rest) :
    Offsets m (byteLength before) (ls.map Lexeme.token)
      (byteLength (before ++ cs.rdropWhile isBlank)) := by
  induction h with
  | blanks blank =>
    rw [List.rdropWhile_eq_nil_iff.mpr blank, List.append_nil]
    exact .nil
  | @token before gap behind _ w _ _ _ longest _ _ ih =>
    have hends : (gap ++ w.text).rdropWhile isBlank = gap ++ w.text := by
      have hne : w.text ≠ [] := longest.valid.ne_nil
      have hlast := List.rdropWhile_eq_self_iff.mp longest.valid.rdropWhile_text hne
      refine List.rdropWhile_eq_self_iff.mpr fun _ => ?_
      rwa [List.getLast_append_of_right_ne_nil _ _ hne]
    rw [rdropWhile_append hends, ← List.append_assoc, ← List.append_assoc]
    refine .cons ?_ ?_ ih
    · rw [byteLength_append]
      exact Nat.le_add_right _ _
    · have hstop : byteLength (before ++ gap ++ w.text) =
          byteLength (before ++ gap) + byteLength w.text := byteLength_append
      rw [hstop]
      exact Nat.lt_add_of_pos_right (byteLength_pos longest.valid.ne_nil)

/-- **The tokens of a text stand at ascending offsets of it**, up to a failure or else up to
its blanks at the end. -/
theorem lex_offsets : ∃ hi ≤ source.utf8ByteSize,
    Offsets (.ofSource source) 0 (lex source).tokens hi ∧
      ((lex source).failure = none → hi = byteLength (source.toList.rdropWhile isBlank)) := by
  obtain ⟨covered, rest, hsource, hsegments, hwhole, -⟩ := lex_segments source
  refine ⟨_, ?_, hsegments.offsets, fun hf => ?_⟩
  · obtain ⟨gap, hgap⟩ := covered.rdropWhile_prefix isBlank
    have hcovered := congrArg byteLength hgap
    rw [byteLength_append] at hcovered
    rw [LineMap.utf8ByteSize_eq hsource, List.nil_append]
    omega
  · rw [hwhole.mp hf, List.append_nil] at hsource
    rw [hsource, List.nil_append]

/-- The place of offset zero. -/
theorem position_zero (hsize : source.utf8ByteSize < LineMap.wordSize) :
    (LineMap.ofSource source).position 0 = Position.first := by
  rw [LineMap.position_take hsize (Nat.zero_le _), List.take_zero]
  rfl

/-! ## Texts whose tokens have places -/

/-- **The places of the tokens of a text are words**: one byte less than a word has values is the
most a text may have, and only if it has a line break or a blank at its end. -/
structure TokensFit (source : String) : Prop where
  size_lt : source.utf8ByteSize < LineMap.wordSize
  ends : source.utf8ByteSize + 1 = LineMap.wordSize →
    '\n' ∈ source.toList ∨ ∃ c ∈ source.toList.getLast?, isBlank c = true

/-- A text that ends with its last token has places that are words throughout. -/
theorem TokensFit.fits (h : TokensFit source)
    (hends : source.toList.rdropWhile isBlank = source.toList) : LineMap.Fits source := by
  have hne : source.utf8ByteSize + 1 = LineMap.wordSize → source.toList ≠ [] := by
    intro hsize hnil
    have hzero : source.utf8ByteSize = byteLength [] + byteLength [] :=
      LineMap.utf8ByteSize_eq hnil
    rw [hzero] at hsize
    cases hsize
  have hlast : ∀ hne : source.toList ≠ [], ¬ isBlank (source.toList.getLast hne) = true :=
    List.rdropWhile_eq_self_iff.mp hends
  refine ⟨h.size_lt, fun hsize => ?broken, fun hsize => ?filled⟩
  case broken =>
    obtain hbreak | ⟨c, hc, hblank⟩ := h.ends hsize
    · rw [LineMap.bytes_eq]
      exact List.mem_flatMap.mpr ⟨'\n', hbreak, by decide⟩
    · rw [List.getLast?_eq_some_getLast (hne hsize)] at hc
      cases hc
      exact absurd hblank (hlast (hne hsize))
  case filled =>
    rw [LineMap.bytes_eq]
    refine LineMap.exists_mem_encode (List.getLast_mem (hne hsize)) fun hbreak => ?_
    exact hlast (hne hsize) (hbreak ▸ rfl)

/-- No place up to the end of the last token wraps. -/
theorem TokensFit.position_eq (h : TokensFit source) {b : Nat}
    (hb : b ≤ byteLength (source.toList.rdropWhile isBlank)) :
    (LineMap.ofSource source).position b =
      Position.first.passAll ((LineMap.bytes source).take b) := by
  obtain ⟨gap, hgap⟩ := source.toList.rdropWhile_prefix isBlank
  have hlength := LineMap.utf8ByteSize_eq hgap.symm
  by_cases hlt : b < source.utf8ByteSize
  · exact LineMap.position_of_lt h.size_lt hlt
  · obtain rfl : gap = [] := by
      by_contra hne
      have hpos : 0 < byteLength gap := byteLength_pos hne
      omega
    rw [List.append_nil] at hgap
    exact (h.fits hgap).position_take (by omega)

/-- **The tokens of a text stand in reading order**, where their places are words. -/
theorem inOrder_of_tokenize (hfit : TokensFit source) (h : tokenize source = .ok tokens) :
    InOrder Position.first tokens := by
  obtain ⟨hi, hle, hoffsets, hwhole⟩ := @lex_offsets source
  have hfailure : (lex source).failure = none := by
    rw [tokenize] at h
    split at h
    case h_1 => cases h
    case h_2 hf => exact hf
  rw [tokens_of_tokenize h] at hoffsets
  rw [← position_zero hfit.size_lt]
  exact hoffsets.inOrder fun a b hab hb => LineMap.position_lt hfit.size_lt hab
    (Nat.le_trans hb hle) (hfit.position_eq (hwhole hfailure ▸ hb))

/-! ## Slices -/

/-- Each lexeme of a text has the span of its characters behind those before it. -/
theorem Lexer.Segments.spans {before cs rest : List Char} {ls : List Lexeme}
    (h : Segments m before cs ls rest) : ∀ l ∈ ls, ∃ front behind,
      before ++ cs ++ rest = front ++ l.text ++ behind ∧ l.token.span = m.spanOf front l.text := by
  induction h with
  | blanks => exact List.forall_mem_nil _
  | @token before gap behind rest _ _ _ _ _ _ _ ih =>
    refine List.forall_mem_cons.mpr ⟨⟨before ++ gap, behind ++ rest, ?_, rfl⟩, fun l hl => ?_⟩
    · simp
    · obtain ⟨front, after, heq, hspan⟩ := ih l hl
      exact ⟨front, after, by simpa using heq, hspan⟩

end Ascription
