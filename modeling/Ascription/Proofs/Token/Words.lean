import Ascription.Proofs.Token.Lexes

/-!
# Proofs/Token/Words — what the scanner takes for a word

    scan cs = a word  ⟺  cs is spelled like the word, and what follows does not go on with it

A word looks at one character behind itself, so a blank behind a text changes none of its words: a
text with a blank and another text behind it has the words of both.
-/

namespace Ascription

namespace Lexer

open Numeral (isDigit sign)

/-- **Being spelled like a word**, with characters behind that do not go on with it. -/
inductive Word : List Char → TokenKind → List Char → Prop
  | mark {p rest} (clear : Clear p rest) : Word p.text.toList (.punct p) rest
  | name {n rest} (name : IsName n.toList) (ends : ∀ c ∈ rest.head?, isReserved c = true) :
      Word n.toList (.name n) rest
  | string {s rest} (closed : '\"' ∉ s.toList) :
      Word ('\"' :: (s.toList ++ ['\"'])) (.string s) rest
  | int {negative ds n rest} (some : ds ≠ []) (digits : ∀ c ∈ ds, isDigit c = true)
      (value : Numeral.int64? negative (Numeral.natural ds) = .some n)
      (ends : ∀ c ∈ rest.head?, isDigit c = false ∧ c ≠ '.') :
      Word (sign negative ++ ds) (.int n) rest
  | float {negative ds es rest} (some : ds ≠ []) (digits : ∀ c ∈ ds, isDigit c = true)
      (fraction : ∀ c ∈ es, isDigit c = true) (ends : ∀ c ∈ rest.head?, isDigit c = false) :
      Word (sign negative ++ ds ++ '.' :: es) (.float (Numeral.decimal negative ds es)) rest

variable {cs text rest : List Char} {kind : TokenKind} {m : LineMap} {fuel : Nat}

theorem Word.ne_nil (h : Word text kind rest) : text ≠ [] := by
  cases h with
  | @mark p => cases p <;> nofun
  | name name =>
    obtain ⟨c, cs, hcs, -⟩ := name
    rw [hcs]
    nofun
  | string => nofun
  | int some => simp [some]
  | float => simp

theorem Word.isNaN_eq_false (h : Word text kind rest) : ∀ x, kind = .float x → x.isNaN = false := by
  cases h with
  | float =>
    rintro _ ⟨⟩
    exact Binary64.isNaN_ofDecimal
  | _ => nofun

/-! ## Forwards -/

theorem scan_signed {negative : Bool} {ds : List Char} (hds : ds ≠ [])
    (hall : ∀ c ∈ ds, isDigit c = true) :
    scan (sign negative ++ ds ++ rest) = scanNumber negative (ds ++ rest) := by
  obtain ⟨c, cs, rfl⟩ := List.exists_cons_of_ne_nil hds
  simpa using @scan_number negative c (cs ++ rest) (hall c List.mem_cons_self)

/-- **A word is scanned.** -/
theorem Word.scan (h : Word text kind rest) : scan (text ++ rest) = .lexeme text kind rest := by
  cases h with
  | mark clear => exact scan_mark clear
  | name name ends => exact scan_name name ends
  | string closed => exact scan_string closed
  | int some digits value ends =>
    rw [scan_signed some digits]
    exact scanNumber_int digits value ends
  | @float negative ds es _ some digits fraction ends =>
    have hscan := @scan_signed ('.' :: es ++ rest) negative ds some digits
    rw [← List.append_assoc] at hscan
    rw [hscan, ← List.append_assoc]
    exact scanNumber_float digits fraction ends

/-! ## Backwards -/

theorem head?_dropWhile {q : Char → Bool} : ∀ c ∈ (cs.dropWhile q).head?, q c = false := by
  intro c hc
  have h := List.head?_dropWhile_not q cs
  rw [Option.mem_def.mp hc] at h
  simpa using h

theorem of_mem_takeWhile {q : Char → Bool} : ∀ c ∈ cs.takeWhile q, q c = true :=
  List.all_eq_true.mp List.all_takeWhile

theorem mark?_eq_some {p : Punct} (h : mark? cs = some p)
    (hnumeral : ∀ ds, cs = '-' :: ds → startsNumeral ds = false) :
    ∃ rest, cs = p.text.toList ++ rest ∧ Clear p rest := by
  unfold mark? at h
  split at h
  case h_4 rest hdouble =>
    cases h
    refine ⟨rest, rfl, ?_⟩
    rintro c hc rfl
    obtain ⟨ds, rfl⟩ := List.head?_eq_some_iff.mp hc
    exact hdouble ds rfl
  case h_5 rest harrow =>
    cases h
    refine ⟨rest, rfl, fun c hc => ?_⟩
    obtain ⟨ds, rfl⟩ := List.head?_eq_some_iff.mp hc
    refine ⟨?_, hnumeral _ rfl⟩
    rintro rfl
    exact harrow ds rfl
  case h_17 => cases h
  all_goals
    cases h
    exact ⟨_, rfl, trivial⟩

theorem scanString_eq_lexeme (h : scanString cs = .lexeme text kind rest) :
    '\"' :: cs = text ++ rest ∧ Word text kind rest := by
  have hsplit : cs.takeWhile (· != '\"') ++ cs.dropWhile (· != '\"') = cs :=
    List.takeWhile_append_dropWhile
  have hquote : ∀ c ∈ (cs.dropWhile (· != '\"')).head?, (c != '\"') = false := head?_dropWhile
  rw [scanString] at h
  split at h
  case h_1 quote behind hbehind =>
    cases h
    rw [hbehind] at hsplit hquote
    obtain rfl : quote = '\"' := by simpa using hquote quote rfl
    refine ⟨by simpa using hsplit.symm, ?_⟩
    have hword : Word _ (.string (String.ofList (cs.takeWhile (· != '\"')))) rest :=
      .string fun hmem => ?_
    · rwa [String.toList_ofList] at hword
    · rw [String.toList_ofList] at hmem
      simpa using of_mem_takeWhile _ hmem
  case h_2 => cases h

theorem scanNumber_eq_lexeme {negative : Bool} (hds : cs.takeWhile isDigit ≠ [])
    (h : scanNumber negative cs = .lexeme text kind rest) :
    sign negative ++ cs = text ++ rest ∧ Word text kind rest := by
  have hsplit : cs.takeWhile isDigit ++ cs.dropWhile isDigit = cs := List.takeWhile_append_dropWhile
  have hends : ∀ c ∈ (cs.dropWhile isDigit).head?, isDigit c = false := head?_dropWhile
  rw [scanNumber] at h
  split at h
  case h_1 behind hbehind =>
    cases h
    have hfraction : behind.takeWhile isDigit ++ behind.dropWhile isDigit = behind :=
      List.takeWhile_append_dropWhile
    refine ⟨?_, .float hds of_mem_takeWhile of_mem_takeWhile head?_dropWhile⟩
    rw [hbehind] at hsplit
    calc sign negative ++ cs
        = sign negative ++ (cs.takeWhile isDigit ++ '.' :: behind) := by rw [hsplit]
      _ = sign negative ++ (cs.takeWhile isDigit ++
            '.' :: (behind.takeWhile isDigit ++ behind.dropWhile isDigit)) := by rw [hfraction]
      _ = _ := by simp [sign]
  case h_2 hpoint =>
    split at h
    case h_1 n hn =>
      cases h
      refine ⟨by rw [← sign, List.append_assoc, hsplit], .int hds of_mem_takeWhile hn
        fun c hc => ?_⟩
      refine ⟨hends c hc, ?_⟩
      rintro rfl
      obtain ⟨ds, hds⟩ := List.head?_eq_some_iff.mp hc
      exact hpoint ds hds
    case h_2 => cases h

theorem scanName_eq_lexeme {c : Char} (hc : startsName c = true)
    (h : scanName (c :: cs) = .lexeme text kind rest) :
    c :: cs = text ++ rest ∧ Word text kind rest := by
  have hreserved : isReserved c = false := by simp_all [startsName]
  have hname : (c :: cs).takeWhile (! isReserved ·) = c :: cs.takeWhile (! isReserved ·) :=
    List.takeWhile_cons_of_pos (by simp [hreserved])
  have hends : ∀ d ∈ ((c :: cs).dropWhile (! isReserved ·)).head?, (! isReserved d) = false :=
    head?_dropWhile
  cases h
  refine ⟨List.takeWhile_append_dropWhile.symm, ?_⟩
  have hword : IsName (String.ofList ((c :: cs).takeWhile (! isReserved ·))).toList := by
    refine ⟨c, cs.takeWhile (! isReserved ·), ?_, hc, fun d hd => ?_⟩
    · rw [String.toList_ofList, hname]
    · simpa using of_mem_takeWhile d hd
  simpa using Word.name hword (by simpa using hends)

/-- **What is scanned is a word.** -/
theorem word_of_scan (h : scan cs = .lexeme text kind rest) :
    cs = text ++ rest ∧ Word text kind rest := by
  cases cs with
  | nil => cases h
  | cons c cs =>
  rw [scan] at h
  split at h
  case isTrue hc => exact hc ▸ scanString_eq_lexeme h
  case isFalse =>
  split at h
  case isTrue hdigit => exact @scanNumber_eq_lexeme _ _ _ _ false (by simp [hdigit]) h
  case isFalse =>
  split at h
  case isTrue hminus =>
    obtain ⟨rfl, hnumeral⟩ : c = '-' ∧ startsNumeral cs = true := by simpa using hminus
    refine @scanNumber_eq_lexeme _ _ _ _ true (fun hnil => ?_) h
    cases cs with
    | nil => cases hnumeral
    | cons d ds =>
      have hd : isDigit d = true := hnumeral
      simp [hd] at hnil
  case isFalse hminus =>
  split at h
  case isTrue hname => exact scanName_eq_lexeme hname h
  case isFalse =>
  split at h
  case h_1 p hp =>
    cases h
    obtain ⟨behind, hcs, hclear⟩ := mark?_eq_some hp fun ds hds => by simp_all
    rw [hcs, List.take_left, List.drop_left]
    exact ⟨rfl, .mark hclear⟩
  case h_2 => cases h

/-! ## A blank behind -/

variable {more : List Char} {ks ks' : List TokenKind}

theorem forall_head?_blank {P : Char → Prop} (hblank : P ' ') (h : ∀ c ∈ rest.head?, P c) :
    ∀ c ∈ (rest ++ ' ' :: more).head?, P c := by
  cases rest with
  | nil =>
    rintro c ⟨⟩
    exact hblank
  | cons d ds => exact h

/-- **A word stays a word** when a blank ends the characters behind it. -/
theorem Word.blank (h : Word text kind rest) : Word text kind (rest ++ ' ' :: more) := by
  cases h with
  | @mark p _ clear =>
    refine .mark ?_
    cases p with
    | pipe => exact forall_head?_blank (by decide) clear
    | minus => exact forall_head?_blank (by decide) clear
    | _ => trivial
  | name name ends => exact .name name (forall_head?_blank rfl ends)
  | string closed => exact .string closed
  | int some digits value ends => exact .int some digits value (forall_head?_blank (by decide) ends)
  | float some digits fraction ends =>
    exact .float some digits fraction (forall_head?_blank rfl ends)

/-- **A word ends at a blank**, as it does at the end of the text. -/
theorem Word.ended (h : Word text kind rest) {rest' : List Char}
    (hblank : ∀ c ∈ rest'.head?, isBlank c = true) : Word text kind rest' := by
  have hne : ∀ {d : Char}, isBlank d = false → ∀ c ∈ rest'.head?, c ≠ d := by
    rintro d hd c hc rfl
    rw [hblank c hc] at hd
    cases hd
  have hdigit : ∀ c ∈ rest'.head?, Numeral.isDigit c = false := fun c hc =>
    not_digit_of_blank (hblank c hc)
  cases h with
  | @mark p =>
    refine .mark ?_
    cases p with
    | pipe => exact hne rfl
    | minus => exact fun c hc => ⟨hne rfl c hc, hdigit c hc⟩
    | _ => trivial
  | name name => exact .name name fun c hc => by simp [isReserved, hblank c hc]
  | string closed => exact .string closed
  | int some digits value =>
    exact .int some digits value fun c hc => ⟨hdigit c hc, hne rfl c hc⟩
  | float some digits fraction => exact .float some digits fraction hdigit

/-! ## Whole texts -/

/-- Nothing is read where a blank stands. -/
theorem scan_blank {c : Char} (h : isBlank c = true) :
    ∃ fault text, scan (c :: cs) = .fault fault text := by
  simp only [isBlank, Bool.or_eq_true, beq_iff_eq] at h
  obtain (((rfl | rfl) | rfl) | rfl) | rfl := h <;> exact ⟨_, _, rfl⟩

/-- A text that starts with a word has it as its first. -/
theorem Lexes.cons (h : Word text kind rest) (hrest : Lexes rest ks) :
    Lexes (text ++ rest) (kind :: ks) := by
  obtain ⟨c, cs, rfl⟩ := List.exists_cons_of_ne_nil h.ne_nil
  have hc : isBlank c = false := by
    rw [Bool.eq_false_iff]
    intro hc
    obtain ⟨fault, text, hfault⟩ := @scan_blank (cs ++ rest) c hc
    exact nomatch h.scan.symm.trans hfault
  exact .word hc h.scan hrest

theorem lexFrom_fault {offset : Nat} {c : Char} {fault : SyntaxFault} (hc : isBlank c = false)
    (hscan : scan (c :: cs) = .fault fault text) :
    (lexFrom m (fuel + 1) offset (c :: cs)).failure ≠ none := by
  have hc' : ¬ isBlank c = true := by simp [hc]
  rw [lexFrom, List.takeWhile_cons_of_neg hc', List.dropWhile_cons_of_neg hc']
  simp only [hscan]
  exact Option.some_ne_none _

/-- What is read to its end has words. -/
theorem lexes_of_lexFrom : ∀ {offset : Nat} {cs : List Char}, cs.length < fuel →
    (lexFrom m fuel offset cs).failure = none →
    Lexes cs ((lexFrom m fuel offset cs).tokens.map Token.kind) := by
  induction fuel with
  | zero => nofun
  | succ fuel ih =>
    intro offset cs hfuel hend
    induction cs generalizing offset with
    | nil => exact .nil
    | cons c cs ihcs =>
      cases hc : isBlank c with
      | true =>
        rw [lexFrom_blank hc] at hend ⊢
        exact .blank hc (ihcs (Nat.lt_of_succ_lt hfuel) hend)
      | false =>
        cases hscan : scan (c :: cs) with
        | fault => exact absurd hend (lexFrom_fault hc hscan)
        | lexeme text kind rest =>
          obtain ⟨hcs, hword⟩ := word_of_scan hscan
          obtain ⟨d, ds, rfl⟩ := List.exists_cons_of_ne_nil hword.ne_nil
          obtain rfl : c = d := (List.cons.inj hcs).1
          rw [hcs] at hscan hend hfuel ⊢
          rw [lexFrom_word hc hscan] at hend ⊢
          have hlength : rest.length < fuel := by
            simp at hfuel
            omega
          exact .word hc hscan (ih hlength hend)

theorem tokens_of_tokenize {source : String} {tokens : List Token}
    (h : tokenize source = .ok tokens) : (lex source).tokens = tokens := by
  rw [tokenize] at h
  split at h
  case h_1 => cases h
  case h_2 =>
    cases h
    rfl

/-- **A text that is read to its end** has the words that are read. -/
theorem lexes_of_tokenize {source : String} {tokens : List Token}
    (h : tokenize source = .ok tokens) : Lexes source.toList (tokens.map Token.kind) := by
  rw [tokenize] at h
  split at h
  case h_1 => cases h
  case h_2 hend =>
    cases h
    exact lexes_of_lexFrom (Nat.lt_succ_self _) hend

/-- Every float that is read is a number. -/
theorem Lexes.isNaN_eq_false (h : Lexes cs ks) : ∀ x, .float x ∈ ks → x.isNaN = false := by
  induction h with
  | nil => nofun
  | blank _ _ ih => exact ih
  | word _ scanned _ ih =>
    intro x hx
    obtain hx | hx := List.mem_cons.mp hx
    · exact (word_of_scan scanned).2.isNaN_eq_false x hx.symm
    · exact ih x hx

/-- The words of a text are determined. -/
theorem Lexes.unique (h : Lexes cs ks) (h' : Lexes cs ks') : ks = ks' := by
  have hks := (h.lexFrom (m := .ofSource "") 0 (Nat.lt_succ_self _)).2
  exact hks.symm.trans (h'.lexFrom 0 (Nat.lt_succ_self _)).2

theorem Lexes.of_blank {c : Char} (hc : isBlank c = true) (h : Lexes (c :: cs) ks) :
    Lexes cs ks := by
  generalize hcs : c :: cs = ds at h
  cases h with
  | nil => cases hcs
  | blank _ behind =>
    cases hcs
    exact behind
  | word starts =>
    cases hcs
    simp [hc] at starts

/-- Behind a word are the other words. -/
theorem Lexes.of_word {c : Char} (hc : isBlank c = false)
    (hscan : scan (c :: text ++ rest) = .lexeme (c :: text) kind rest)
    (h : Lexes (c :: text ++ rest) ks) : ∃ ks', Lexes rest ks' := by
  generalize hcs : c :: text ++ rest = ds at h
  cases h with
  | nil => cases hcs
  | blank blank =>
    cases hcs
    simp [hc] at blank
  | word _ scanned behind =>
    rw [← hcs, hscan] at scanned
    cases scanned
    exact ⟨_, behind⟩

/-- **A text behind a blank has words** if the text before it has and both together have. -/
theorem Lexes.behind_blank (h : Lexes cs ks) (hall : Lexes (cs ++ ' ' :: more) ks') :
    ∃ after, Lexes more after := by
  induction h generalizing ks' with
  | nil => exact ⟨_, hall.of_blank rfl⟩
  | blank hc _ ih => exact ih (hall.of_blank hc)
  | @word c text kind rest ks hc hscan behind ih =>
    have hword : Word (c :: text) kind (rest ++ ' ' :: more) := (word_of_scan hscan).2.blank
    rw [List.append_assoc] at hall
    obtain ⟨after, hafter⟩ := hall.of_word hc hword.scan
    exact ih hafter

end Lexer

end Ascription
