import Ascription.Diagnostic.OfError
import Ascription.Proofs.Parser.Located

/-!
# Proofs/Diagnostic/Codes — the code of a syntax error is that of the check that finds it

    check  ──message──▸  wording  ──codeOf──▸  code

A message starts with words of its check, and what a text brings into it stands behind them, so no
name and no token of a text leads to another code.  The words of an expectation are those of an
expectation also when it asks for any mark but the equality operator, which is never asked for.
Only a bracket that is never closed is put in other words, which no code is kept for.
-/

namespace Ascription

/-! ## Checks -/

namespace SyntaxFault

/-- **The code of the check** that finds a fault.  No check finds the other faults. -/
def checkCode : SyntaxFault → Option String
  | unterminatedString => some "E0102"
  | incompleteEquality => some "E0103"
  | integerOutOfRange => some "E0104"
  | expected _ _ => some "E0105"
  | trailing _ => some "E0106"
  | undeclared _ => some "E0107"
  | untypedCall _ => some "E0108"
  | unexpectedCharacter _ | unexpectedEnd => none

/-- The marks that close brackets and lists of parameters. -/
def closers : List Punct := [.rightParen, .rightBracket, .rightBrace, .pipe]

/-- The text ends where a bracket or a list of parameters has to be closed. -/
def isUnclosed : SyntaxFault → Bool
  | expected (.punct p) none => closers.contains p
  | _ => false

theorem isUnclosed_eq_true {f : SyntaxFault} :
    f.isUnclosed = true ↔ ∃ p ∈ closers, f = .expected (.punct p) none := by
  constructor
  · intro h
    unfold isUnclosed at h
    split at h
    · exact ⟨_, List.contains_iff_mem.mp h, rfl⟩
    · cases h
  · rintro ⟨p, hp, rfl⟩
    exact List.contains_iff_mem.mpr hp

theorem expectedMessage_eq {what : Expectation} {found : Option TokenKind}
    (h : (expected what found).isUnclosed = false) :
    expectedMessage what found = "Expected " ++ what.title ++ ", found " ++ foundTitle found := by
  unfold expectedMessage
  split
  all_goals first | rfl | exact absurd h (by decide)

end SyntaxFault

/-! ## Wordings -/

namespace SyntaxError

variable {front rest wording : String}

/-- What stands behind does not matter to a wording that does not start with the front. -/
theorem startsWith_append (h : startsWith wording front = false) :
    startsWith (front ++ rest) wording = startsWith front wording := by
  rw [startsWith, ← Bool.not_eq_true, List.isPrefixOf_iff_prefix] at h
  rw [startsWith, startsWith, String.toList_append, Bool.eq_iff_iff, List.isPrefixOf_iff_prefix,
    List.isPrefixOf_iff_prefix]
  refine ⟨fun hprefix => ?_, fun hprefix => hprefix.trans (List.prefix_append _ _)⟩
  exact (List.prefix_or_prefix_of_prefix hprefix (List.prefix_append _ _)).resolve_right h

/-- What stands before does not matter to a wording that does not end with the rest. -/
theorem endsWith_append (h : endsWith wording rest = false) :
    endsWith (front ++ rest) wording = endsWith rest wording := by
  rw [endsWith, ← Bool.not_eq_true, List.isSuffixOf_iff_suffix] at h
  rw [endsWith, endsWith, String.toList_append, Bool.eq_iff_iff, List.isSuffixOf_iff_suffix,
    List.isSuffixOf_iff_suffix]
  refine ⟨fun hsuffix => ?_, fun hsuffix => hsuffix.trans (List.suffix_append _ _)⟩
  exact (List.suffix_or_suffix_of_suffix hsuffix (List.suffix_append _ _)).resolve_right h

/-- No mark but the equality operator has a title that starts as the wording of the lexer goes
on. -/
theorem startsWith_title {what : Expectation} (h : what ≠ .punct .tripleEquals) :
    startsWith "Expected '=='" ("Expected " ++ what.title ++ ", found ") = false ∧
      startsWith ("Expected " ++ what.title ++ ", found ") "Expected '=='" = false := by
  cases what with
  | punct p =>
    cases p with
    | tripleEquals => exact absurd rfl h
    | _ => decide
  | _ => decide

theorem codeOf_expected {what : Expectation} (h : what ≠ .punct .tripleEquals) :
    codeOf ("Expected " ++ what.title ++ ", found " ++ rest) = "E0105" := by
  obtain ⟨hlonger, hmark⟩ := startsWith_title h
  have hself : ∀ text, startsWith ("Expected " ++ text) "Expected " = true := fun text => by
    rw [startsWith, String.toList_append, List.isPrefixOf_iff_prefix]
    exact List.prefix_append _ _
  rw [codeOf, startsWith_append hlonger, hmark]
  simp (disch := decide) only [String.append_assoc, startsWith_append, hself]
  rfl

theorem codeOf_trailing : codeOf ("Unexpected token: " ++ rest) = "E0106" := by
  simp (disch := decide) only [codeOf, startsWith_append]
  rfl

/-- Whatever the name. -/
theorem codeOf_undeclared {name : String} :
    codeOf ("'" ++ name ++ "' is not declared") = "E0107" := by
  have hend : endsWith ("'" ++ name ++ "' is not declared") "is not declared" = true :=
    endsWith_append (by decide)
  rw [codeOf, hend]
  simp (disch := decide) only [String.append_assoc, startsWith_append]
  rfl

theorem codeOf_untypedCall {name : String} :
    codeOf ("Call to '" ++ name ++ "' needs a return type") = "E0108" := by
  have hend : endsWith ("Call to '" ++ name ++ "' needs a return type") "is not declared" = false :=
    endsWith_append (by decide)
  rw [codeOf, hend]
  simp (disch := decide) only [String.append_assoc, startsWith_append]
  rfl

/-- The words for a bracket that is never closed are those of no check. -/
theorem codeOf_unclosed : ∀ p ∈ SyntaxFault.closers,
    codeOf (SyntaxFault.expected (.punct p) none).message = "E0100" := by decide

/-- **The code that a message leads to** is that of the check, but where a bracket is never
closed. -/
theorem codeOf_message {f : SyntaxFault} {code : String} (hcheck : f.checkCode = some code)
    (hasked : ∀ found, f ≠ .expected (.punct .tripleEquals) found) :
    codeOf f.message = if f.isUnclosed then "E0100" else code := by
  cases f with
  | unexpectedCharacter | unexpectedEnd => cases hcheck
  | unterminatedString | incompleteEquality | integerOutOfRange =>
    cases hcheck
    decide
  | trailing =>
    cases hcheck
    exact codeOf_trailing
  | undeclared =>
    cases hcheck
    exact codeOf_undeclared
  | untypedCall =>
    cases hcheck
    exact codeOf_untypedCall
  | expected what found =>
    cases hcheck
    have hwhat : what ≠ .punct .tripleEquals := by
      rintro rfl
      exact hasked found rfl
    by_cases hunclosed : (SyntaxFault.expected what found).isUnclosed = true
    · rw [if_pos hunclosed]
      obtain ⟨p, hp, hf⟩ := SyntaxFault.isUnclosed_eq_true.mp hunclosed
      rw [hf, codeOf_unclosed p hp]
    · have hmessage : (SyntaxFault.expected what found).message =
          "Expected " ++ what.title ++ ", found " ++ SyntaxFault.foundTitle found :=
        SyntaxFault.expectedMessage_eq (Bool.eq_false_iff.mpr hunclosed)
      rw [if_neg hunclosed, hmessage, codeOf_expected hwhat]

end SyntaxError

/-! ## Texts -/

theorem SyntaxError.code_diagnostic {e : SyntaxError} :
    e.diagnostic.code = some (codeOf e.fault.message) := by
  have hlabel : ∀ (d : Diagnostic) span role text, (d.withLabel span role text).code = d.code := by
    intro d span role text
    rw [Diagnostic.withLabel]
    split <;> rfl
  have hhelp : ∀ (d : Diagnostic) help, (d.withHelp? help).code = d.code := by
    intro d help
    cases help <;> rfl
  rw [diagnostic, hhelp, Diagnostic.withPrimary, hlabel]
  rfl

/-- **A text is refused for its form**, by the lexer or by a parser. -/
inductive Raises (source : String) (e : SyntaxError) : Prop
  | lexed (h : tokenize source = .error e)
  | read {r ds} (h : parseWith source r ds = .error (.malformed e))
  | readTyped {expected r} (h : parseTyped source expected r = .error (.malformed e))
  | readType {r} (h : parseType source r = .error (.malformed e))

theorem parseTyped_malformed {source : String} {expected : Ty} {r : Registry} {e : SyntaxError}
    (h : parseTyped source expected r = .error (.malformed e)) :
    parseWith source r [] = .error (.malformed e) := by
  obtain h | ⟨tree, -, h⟩ := Except.bind_eq_error.mp h
  · exact h
  · split at h
    · cases h
    · split at h <;> cases h

/-- A text may be refused anywhere, by the lexer or for what a parser finds wrong. -/
def Blame.misreadOrFound (l : Lexed) : Blame where
  spans _ := True
  errors e := (∃ f, l.failure = some f ∧ e = .malformed f) ∨ e.Found
  merge _ _ := trivial
  located hfound _ := .inr hfound

theorem Blame.covers_misreadOrFound {l : Lexed} : (misreadOrFound l).Covers l where
  tokens _ _ := trivial
  lexical f hf := .inl ⟨f, hf, rfl⟩
  ended _ _ hwhat := .inr (.expected hwhat)

namespace Raises

variable {source : String} {e : SyntaxError}

theorem misspelled {f : SyntaxError} (h : (lex source).failure = some f) :
    ∃ rest, rest <:+ source.toList ∧ Lexer.Misspelled rest f.fault := by
  obtain ⟨covered, rest, hsource, -, -, hfailure⟩ := lex_segments source
  exact ⟨rest, ⟨covered, hsource.symm⟩, (hfailure f h).2.2.1⟩

/-- What refuses a text is the lexer, where the text is misspelled, or what a parser finds. -/
theorem misspelled_or_found (h : Raises source e) :
    (∃ rest, rest <:+ source.toList ∧ Lexer.Misspelled rest e.fault) ∨
      (ParseError.malformed e).Found := by
  have hblamed : (Blame.misreadOrFound (lex source)).errors (.malformed e) →
      (∃ rest, rest <:+ source.toList ∧ Lexer.Misspelled rest e.fault) ∨
        (ParseError.malformed e).Found := by
    rintro (⟨f, hf, hmalformed⟩ | hfound)
    · cases hmalformed
      exact .inl (misspelled hf)
    · exact .inr hfound
  have hparse : ∀ {r ds}, parseWith source r ds = .error (.malformed e) →
      (Blame.misreadOrFound (lex source)).errors (.malformed e) := fun h =>
    Parser.readAll_blamed Blame.covers_misreadOrFound (fun _ => Parser.Takes.expr)
      (Except.map_eq_error.mp h)
  cases h with
  | lexed h =>
    rw [tokenize] at h
    split at h
    case h_1 hf =>
      cases h
      exact .inl (misspelled hf)
    case h_2 => cases h
  | read h => exact hblamed (hparse h)
  | readTyped h => exact hblamed (hparse (parseTyped_malformed h))
  | readType h =>
    exact hblamed (Parser.readAll_blamed Blame.covers_misreadOrFound (fun _ => Parser.Takes.type)
      (Except.map_eq_error.mp h))

theorem checked (h : Raises source e) : ∃ code, e.fault.checkCode = some code ∧
    ∀ found, e.fault ≠ .expected (.punct .tripleEquals) found := by
  obtain ⟨rest, -, hmisspelled⟩ | hfound := h.misspelled_or_found
  · generalize e.fault = f at hmisspelled
    cases hmisspelled <;> exact ⟨_, rfl, nofun⟩
  · cases hfound with
    | expected asked => exact ⟨_, rfl, fun _ hfault => asked (SyntaxFault.expected.inj hfault).1⟩
    | _ => exact ⟨_, rfl, nofun⟩

/-- **Every syntax error has the code of the check that found it**, whatever the text contains, but
where a bracket is never closed: such an error has the general code, which no other has. -/
theorem diagnostic_code (h : Raises source e) : ∃ code, e.fault.checkCode = some code ∧
    e.diagnostic.code = some (if e.fault.isUnclosed then "E0100" else code) := by
  obtain ⟨code, hcode, hasked⟩ := h.checked
  exact ⟨code, hcode, by rw [SyntaxError.code_diagnostic, SyntaxError.codeOf_message hcode hasked]⟩

end Raises

/-- Whether a text is refused for its form can be decided without comparing type errors. -/
instance Except.decidableEqMalformed {α : Type} (x : Except ParseError α) (e : SyntaxError) :
    Decidable (x = .error (.malformed e)) :=
  match x with
  | .ok _ => isFalse nofun
  | .error (.illTyped _) => isFalse nofun
  | .error (.malformed e') => decidable_of_iff (e' = e) (by simp)

/-- A name that is written as a message starts. -/
theorem Raises.diagnostic_code_undeclared : ∃ e, Raises "Expected" e ∧ ∃ code,
    e.fault.checkCode = some code ∧
      e.diagnostic.code = some (if e.fault.isUnclosed then "E0100" else code) := by
  have hread : parseWith "Expected" .initial [] =
      .error (.malformed ⟨.undeclared "Expected", ⟨⟨1, 1⟩, ⟨1, 9⟩⟩⟩) := by decide +kernel
  exact ⟨_, .read hread, Raises.diagnostic_code (.read hread)⟩

/-- The parenthesis of `(1` is never closed: a closing one is expected, but the code is not
that of an expectation. -/
theorem not_always_checkCode : ¬ ∀ (source : String) (e : SyntaxError), Raises source e →
    e.diagnostic.code = e.fault.checkCode := by
  intro h
  have hread : parseWith "(1" .initial [] =
      .error (.malformed ⟨.expected (.punct .rightParen) none, Span.point ⟨1, 3⟩⟩) := by
    decide +kernel
  exact absurd (h _ _ (.read hread)) (by decide)

end Ascription
