import Ascription.Proofs.Number.Digits
import Ascription.Proofs.Source.Bytes
import Ascription.Token.Lexer

/-!
# Proofs/Token/Lexes — the words of a text

    Lexes cs ks :  the characters cs are the words ks, with blanks between them

A word is read with all that follows it in sight, so each constructor lemma says what
may stand behind the word: a name ends at a reserved character, a number before anything
that would go on with it.
-/

namespace Ascription

namespace Lexer

/-- **The words of a list of characters.** -/
inductive Lexes : List Char → List TokenKind → Prop
  | nil : Lexes [] []
  | blank {c cs ks} (blank : isBlank c = true) (behind : Lexes cs ks) : Lexes (c :: cs) ks
  | word {c text kind rest ks} (starts : isBlank c = false)
      (scanned : scan (c :: text ++ rest) = .lexeme (c :: text) kind rest)
      (behind : Lexes rest ks) :
      Lexes (c :: text ++ rest) (kind :: ks)

variable {m : LineMap} {fuel offset : Nat}

theorem lexFrom_blank {c : Char} {cs : List Char} (h : isBlank c = true) :
    lexFrom m fuel offset (c :: cs) = lexFrom m fuel (offset + c.utf8Size) cs := by
  cases fuel with
  | zero => rfl
  | succ fuel =>
    rw [lexFrom, lexFrom, List.takeWhile_cons_of_pos h, List.dropWhile_cons_of_pos h,
      byteLength, Nat.add_assoc]

theorem lexFrom_word {c : Char} {text rest : List Char} {kind : TokenKind} (hc : isBlank c = false)
    (hscan : scan (c :: text ++ rest) = .lexeme (c :: text) kind rest) :
    lexFrom m (fuel + 1) offset (c :: text ++ rest) =
      Lexed.cons ⟨c :: text, ⟨kind, m.span offset (offset + byteLength (c :: text))⟩⟩
        (lexFrom m fuel (offset + byteLength (c :: text)) rest) := by
  have hc' : ¬ isBlank c = true := by simp [hc]
  rw [List.cons_append] at hscan ⊢
  rw [lexFrom, List.takeWhile_cons_of_neg hc', List.dropWhile_cons_of_neg hc']
  simp only [hscan]
  rfl

/-- Enough fuel reads all words. -/
theorem Lexes.lexFrom {cs : List Char} {ks : List TokenKind} (h : Lexes cs ks) :
    ∀ {fuel : Nat} (offset : Nat), cs.length < fuel → (lexFrom m fuel offset cs).failure = none ∧
      (lexFrom m fuel offset cs).tokens.map Token.kind = ks := by
  induction h with
  | nil =>
    intro fuel offset hfuel
    cases fuel with
    | zero => exact ⟨rfl, rfl⟩
    | succ fuel => exact ⟨rfl, rfl⟩
  | blank hc behind ih =>
    intro fuel offset hfuel
    rw [lexFrom_blank hc]
    exact ih _ (Nat.lt_of_succ_lt hfuel)
  | @word c text kind rest ks hc hscan behind ih =>
    intro fuel offset hfuel
    cases fuel with
    | zero => cases hfuel
    | succ fuel =>
      have hlength : rest.length < fuel := by
        simp at hfuel
        omega
      rw [lexFrom_word hc hscan]
      obtain ⟨hf, ht⟩ := ih (offset + byteLength (c :: text)) hlength
      exact ⟨hf, by rw [← ht]; rfl⟩

/-- **A text that has words** is read to its end. -/
theorem Lexes.tokenize {source : String} {ks : List TokenKind} (h : Lexes source.toList ks) :
    ∃ tokens, tokenize source = .ok tokens ∧ tokens.map Token.kind = ks := by
  obtain ⟨hf, ht⟩ := h.lexFrom (m := .ofSource source) 0 (Nat.lt_succ_self _)
  refine ⟨(lex source).tokens, ?_, ht⟩
  have hf : (lex source).failure = none := hf
  rw [Ascription.tokenize, hf]

/-! ## One word -/

/-- **The characters of a name**. -/
def IsName (cs : List Char) : Prop :=
  ∃ c cs', cs = c :: cs' ∧ startsName c = true ∧ ∀ c ∈ cs', isReserved c = false

instance : DecidablePred IsName
  | [] => .isFalse (by rintro ⟨c, cs, h, -⟩; cases h)
  | c :: cs =>
    decidable_of_iff (startsName c = true ∧ cs.all (!isReserved ·) = true)
      ⟨fun ⟨hc, hcs⟩ =>
        ⟨c, cs, rfl, hc, fun c hc => by simpa using List.all_eq_true.mp hcs c hc⟩, by
        rintro ⟨c, cs, ⟨⟩, hc, hcs⟩
        exact ⟨hc, List.all_eq_true.mpr fun c hc => by simpa using hcs c hc⟩⟩

/-- May a mark be read with these characters behind it? -/
def Clear : Punct → List Char → Prop
  | .pipe, rest => ∀ c ∈ rest.head?, c ≠ '|'
  | .minus, rest => ∀ c ∈ rest.head?, c ≠ '>' ∧ Numeral.isDigit c = false
  | _, _ => True

theorem scan_of_mark {p : Punct} {c : Char} {cs : List Char} (hquote : c ≠ '\"')
    (hdigit : Numeral.isDigit c = false) (hnumeral : c = '-' → startsNumeral cs = false)
    (hname : startsName c = false) (h : mark? (c :: cs) = some p) :
    scan (c :: cs) = .lexeme ((c :: cs).take p.text.toList.length) (.punct p)
      ((c :: cs).drop p.text.toList.length) := by
  have hminus : ¬ (c = '-' && startsNumeral cs) = true := by simpa using hnumeral
  rw [scan, if_neg hquote, if_neg (by simp [hdigit]), if_neg hminus, if_neg (by simp [hname]), h]

theorem scan_mark {p : Punct} {rest : List Char} (h : Clear p rest) :
    scan (p.text.toList ++ rest) = .lexeme p.text.toList (.punct p) rest := by
  cases p with
  | pipe =>
    cases rest with
    | nil => rfl
    | cons c cs =>
      have hmark : mark? ('|' :: c :: cs) = some .pipe := by simp [mark?, h c rfl]
      exact scan_of_mark (c := '|') (by decide) rfl (fun hminus => nomatch hminus) rfl hmark
  | minus =>
    cases rest with
    | nil => rfl
    | cons c cs =>
      obtain ⟨hc, hd⟩ := h c rfl
      have hmark : mark? ('-' :: c :: cs) = some .minus := by simp [mark?, hc]
      have hnumeral : startsNumeral (c :: cs) = false := hd
      exact scan_of_mark (by decide) rfl (fun _ => hnumeral) rfl hmark
  | _ => rfl

section Reading

variable {rest : List Char} {ks : List TokenKind}

theorem Lexes.mark {p : Punct} (hclear : Clear p rest) (h : Lexes rest ks) :
    Lexes (p.text.toList ++ rest) (.punct p :: ks) := by
  obtain ⟨c, text, htext, hc⟩ : ∃ c text, p.text.toList = c :: text ∧ isBlank c = false := by
    cases p <;> exact ⟨_, _, rfl, rfl⟩
  have hscan := scan_mark hclear
  rw [htext] at hscan ⊢
  exact .word hc hscan h

/-- A mark of one character. -/
theorem Lexes.char (c : Char) (p : Punct) (hp : p.text.toList = [c]) (hclear : Clear p rest)
    (h : Lexes rest ks) : Lexes (c :: rest) (.punct p :: ks) := by
  have hmark := Lexes.mark hclear h
  rwa [hp] at hmark

theorem Lexes.space (h : Lexes rest ks) : Lexes (' ' :: rest) ks := .blank rfl h

theorem takeWhile_append {q : Char → Bool} {cs : List Char} (hcs : ∀ c ∈ cs, q c = true)
    (hrest : ∀ c ∈ rest.head?, q c = false) : (cs ++ rest).takeWhile q = cs := by
  rw [List.takeWhile_append_of_pos hcs]
  cases rest with
  | nil => simp
  | cons c rest => rw [List.takeWhile_cons_of_neg (by simp [hrest c rfl]), List.append_nil]

theorem dropWhile_append {q : Char → Bool} {cs : List Char} (hcs : ∀ c ∈ cs, q c = true)
    (hrest : ∀ c ∈ rest.head?, q c = false) : (cs ++ rest).dropWhile q = rest := by
  rw [List.dropWhile_append_of_pos hcs]
  cases rest with
  | nil => rfl
  | cons c rest => rw [List.dropWhile_cons_of_neg (by simp [hrest c rfl])]

theorem scan_name {n : String} (hn : IsName n.toList)
    (hrest : ∀ c ∈ rest.head?, isReserved c = true) :
    scan (n.toList ++ rest) = .lexeme n.toList (.name n) rest := by
  obtain ⟨c, cs, hcs, hc, hothers⟩ := hn
  have hreserved : isReserved c = false := by simp_all [startsName]
  have hall : ∀ d ∈ c :: cs, (! isReserved d) = true := by simpa [hreserved] using hothers
  have hend : ∀ d ∈ rest.head?, (! isReserved d) = false := by simpa using hrest
  have hquote : c ≠ '\"' := by
    rintro rfl
    cases hreserved
  have hdigit : Numeral.isDigit c = false := by simp_all [startsName]
  have hminus : c ≠ '-' := by
    rintro rfl
    cases hreserved
  rw [hcs, List.cons_append, scan, if_neg hquote, if_neg (by simp [hdigit]),
    if_neg (by simp [hminus]), if_pos hc, scanName, ← List.cons_append,
    takeWhile_append hall hend, dropWhile_append hall hend, ← hcs, String.ofList_toList]

/-- A name goes on to the next reserved character. -/
theorem Lexes.name {n : String} (hn : IsName n.toList)
    (hrest : ∀ c ∈ rest.head?, isReserved c = true)
    (h : Lexes rest ks) : Lexes (n.toList ++ rest) (.name n :: ks) := by
  have hscan := scan_name hn hrest
  obtain ⟨c, cs, hcs, hc, -⟩ := hn
  have hblank : isBlank c = false := by simp_all [startsName, isReserved]
  rw [hcs] at hscan ⊢
  exact .word hblank hscan h

theorem scan_string {s : String} (hs : '\"' ∉ s.toList) :
    scan ('\"' :: (s.toList ++ ['\"']) ++ rest) =
      .lexeme ('\"' :: (s.toList ++ ['\"'])) (.string s) rest := by
  have hall : ∀ c ∈ s.toList, (c != '\"') = true := by
    intro c hc
    rw [bne_iff_ne]
    rintro rfl
    exact hs hc
  have hend : ∀ c ∈ ('\"' :: rest).head?, (c != '\"') = false := by simp
  rw [List.cons_append, List.append_assoc, scan, if_pos rfl, List.singleton_append, scanString,
    takeWhile_append hall hend, dropWhile_append hall hend]
  simp

/-! ## Numbers -/

open Numeral (isDigit sign)

theorem not_digit_of_blank {c : Char} (h : isBlank c = true) : isDigit c = false := by
  simp only [isBlank, Bool.or_eq_true, beq_iff_eq] at h
  obtain (((rfl | rfl) | rfl) | rfl) | rfl := h <;> rfl

theorem scan_number {negative : Bool} {c : Char} {cs : List Char} (hc : isDigit c = true) :
    scan (sign negative ++ c :: cs) = scanNumber negative (c :: cs) := by
  cases negative with
  | true => exact if_pos (by simpa [startsNumeral] using hc)
  | false =>
    have hquote : c ≠ '\"' := by
      rintro rfl
      cases hc
    change scan (c :: cs) = _
    rw [scan, if_neg hquote, if_pos hc]

/-- A word that is scanned as a number is one. -/
theorem Lexes.number {negative : Bool} {ds text : List Char} {kind : TokenKind} (hds : ds ≠ [])
    (hall : ∀ c ∈ ds, isDigit c = true)
    (hscan : scanNumber negative (ds ++ text ++ rest) =
      .lexeme (sign negative ++ ds ++ text) kind rest)
    (h : Lexes rest ks) : Lexes (sign negative ++ ds ++ text ++ rest) (kind :: ks) := by
  obtain ⟨c, cs, rfl⟩ := List.exists_cons_of_ne_nil hds
  have hc : isDigit c = true := hall c List.mem_cons_self
  have hblank : isBlank c = false := by
    cases hblank : isBlank c with
    | true => exact absurd hc (by simp [not_digit_of_blank hblank])
    | false => rfl
  have hscan : scan (sign negative ++ c :: cs ++ text ++ rest) =
      .lexeme (sign negative ++ c :: cs ++ text) kind rest := by
    rw [← hscan]
    simpa using @scan_number negative c (cs ++ text ++ rest) hc
  cases negative with
  | true => exact .word (by rfl) hscan h
  | false => exact .word hblank hscan h

theorem scanNumber_int {negative : Bool} {ds : List Char} {n : Int64}
    (hall : ∀ c ∈ ds, isDigit c = true) (hn : Numeral.int64? negative (Numeral.natural ds) = some n)
    (hrest : ∀ c ∈ rest.head?, isDigit c = false ∧ c ≠ '.') :
    scanNumber negative (ds ++ rest) = .lexeme (sign negative ++ ds) (.int n) rest := by
  have hdigit : ∀ c ∈ rest.head?, isDigit c = false := fun c hc => (hrest c hc).1
  rw [scanNumber, takeWhile_append hall hdigit, dropWhile_append hall hdigit]
  split
  case h_1 => exact absurd rfl (hrest '.' rfl).2
  case h_2 =>
    rw [hn]
    rfl

theorem scanNumber_float {negative : Bool} {ds es : List Char} (hall : ∀ c ∈ ds, isDigit c = true)
    (hfraction : ∀ c ∈ es, isDigit c = true) (hrest : ∀ c ∈ rest.head?, isDigit c = false) :
    scanNumber negative (ds ++ '.' :: es ++ rest) =
      .lexeme (sign negative ++ ds ++ '.' :: es)
        (.float (Numeral.decimal negative ds es)) rest := by
  have hpoint : ∀ c ∈ ('.' :: es ++ rest).head?, isDigit c = false := by
    rintro c ⟨⟩
    rfl
  rw [List.append_assoc, scanNumber, takeWhile_append hall hpoint, dropWhile_append hall hpoint]
  change Scan.lexeme (sign negative ++ ds ++ '.' :: (es ++ rest).takeWhile isDigit)
    (.float (Numeral.decimal negative ds ((es ++ rest).takeWhile isDigit)))
    ((es ++ rest).dropWhile isDigit) = _
  rw [takeWhile_append hfraction hrest, dropWhile_append hfraction hrest]

theorem Lexes.float {negative : Bool} {ds es : List Char} (hds : ds ≠ [])
    (hall : ∀ c ∈ ds, isDigit c = true) (hfraction : ∀ c ∈ es, isDigit c = true)
    (hrest : ∀ c ∈ rest.head?, isDigit c = false) (h : Lexes rest ks) :
    Lexes (sign negative ++ ds ++ '.' :: es ++ rest)
      (.float (Numeral.decimal negative ds es) :: ks) :=
  Lexes.number hds hall (scanNumber_float hall hfraction hrest) h

end Reading

/-! ## The names of a text -/

theorem scanNumber_ne_name {negative : Bool} {cs text rest : List Char} {n : String} :
    scanNumber negative cs ≠ .lexeme text (.name n) rest := by
  intro h
  rw [scanNumber] at h
  split at h
  · cases h
  · split at h <;> cases h

theorem isName_of_scan {cs text rest : List Char} {n : String}
    (h : scan cs = .lexeme text (.name n) rest) : IsName n.toList := by
  cases cs with
  | nil => cases h
  | cons c cs =>
    rw [scan] at h
    split at h
    · rw [scanString] at h
      split at h <;> cases h
    · split at h
      · exact absurd h scanNumber_ne_name
      · split at h
        · exact absurd h scanNumber_ne_name
        · split at h
          case isTrue hc =>
            have hreserved : isReserved c = false := by simp_all [startsName]
            have hn : n.toList = c :: cs.takeWhile (! isReserved ·) := by
              cases h
              rw [String.toList_ofList, List.takeWhile_cons_of_pos (by simp [hreserved])]
            exact ⟨c, _, hn, hc, fun d hd => by
              simpa using List.all_eq_true.mp List.all_takeWhile d hd⟩
          · split at h <;> cases h

/-- **The names of a text are made of name characters.** -/
theorem isName_of_tokenize {source : String} {tokens : List Token}
    (h : tokenize source = .ok tokens) : ∀ t ∈ tokens, ∀ n, t.kind = .name n → IsName n.toList := by
  have hlex : ∀ {fuel offset : Nat} {cs : List Char},
      ∀ t ∈ (lexFrom (.ofSource source) fuel offset cs).tokens, ∀ n, t.kind = .name n →
        IsName n.toList := by
    intro fuel
    induction fuel with
    | zero => exact List.forall_mem_nil _
    | succ fuel ih =>
      intro offset cs t ht n hn
      rw [lexFrom] at ht
      split at ht
      · cases ht
      case h_2 c body hbody =>
        simp only at ht
        split at ht
        case h_1 text kind rest hscan =>
          obtain rfl | ht := List.mem_cons.mp ht
          · cases hn
            exact isName_of_scan hscan
          · exact ih t ht n hn
        case h_2 => cases ht
  rw [tokenize] at h
  split at h
  · cases h
  · cases h
    exact hlex

end Lexer

end Ascription
