import Ascription.Proofs.Token.Words
import Mathlib.Data.List.DropRight

/-!
# Proofs/Token/Patterns — the scanner takes the longest match

    patterns:   a mark  |  a name  |  "…"  |  -?[0-9]+  |  -?[0-9]+ . [0-9]*

A `Pattern` is a match of one of the token patterns, whatever stands behind it.  Each
pattern that could have been longer could have been longer by one character, so a longest
match ends where the scanner stops.  Where nothing matches there is a quote that is never
closed or an equals sign on its own.
-/

namespace Ascription

namespace Lexer

open Numeral (isDigit sign natural)

/-- **A match of one of the token patterns**, taken apart. -/
inductive Pattern
  | mark (p : Punct)
  | name (chars : List Char)
  | string (content : List Char)
  | int (negative : Bool) (digits : List Char)
  | float (negative : Bool) (whole fraction : List Char)

namespace Pattern

/-- The characters of a match. -/
def text : Pattern → List Char
  | mark p => p.text.toList
  | name cs => cs
  | string cs => '\"' :: (cs ++ ['\"'])
  | int negative ds => sign negative ++ ds
  | float negative ds es => sign negative ++ ds ++ '.' :: es

/-- What a pattern asks of its parts. -/
def Valid : Pattern → Prop
  | mark _ => True
  | name cs => IsName cs
  | string cs => '\"' ∉ cs
  | int _ ds => ds ≠ [] ∧ ∀ c ∈ ds, isDigit c = true
  | float _ ds es => ds ≠ [] ∧ (∀ c ∈ ds, isDigit c = true) ∧ ∀ c ∈ es, isDigit c = true

/-- The token of a match; an integer may have none. -/
def kind? : Pattern → Option TokenKind
  | mark p => some (.punct p)
  | name cs => some (.name (String.ofList cs))
  | string cs => some (.string (String.ofList cs))
  | int negative ds => (Numeral.int64? negative (natural ds)).map .int
  | float negative ds es => some (.float (Numeral.decimal negative ds es))

/-- No pattern matches nothing. -/
theorem Valid.ne_nil {w : Pattern} (h : w.Valid) : w.text ≠ [] := by
  cases w with
  | mark p => cases p <;> nofun
  | name cs =>
    obtain ⟨c, cs, rfl, -⟩ := h
    nofun
  | string => nofun
  | int => simp [text, h.1]
  | float => simp [text]

theorem not_blank_of_digit {c : Char} (h : isDigit c = true) : isBlank c = false := by
  rw [Bool.eq_false_iff]
  intro hc
  rw [not_digit_of_blank hc] at h
  cases h

/-- **No match ends in a blank**, and only a string has one in it. -/
theorem Valid.rdropWhile_text {w : Pattern} (h : w.Valid) : w.text.rdropWhile isBlank = w.text := by
  have hsign : ∀ {negative}, ∀ c ∈ sign negative, isBlank c = false := by
    rintro (_ | _) c hc <;> simp_all [sign, isBlank]
  have hall : (∀ c ∈ w.text, isBlank c = false) → w.text.rdropWhile isBlank = w.text := by
    intro hall
    refine List.rdropWhile_eq_self_iff.mpr fun hne => ?_
    simpa using hall _ (List.getLast_mem hne)
  cases w with
  | mark p => cases p <;> rfl
  | name cs =>
    obtain ⟨c, cs, rfl, hc, hcs⟩ := h
    have hname : ∀ {d}, isReserved d = false → isBlank d = false := fun hd => by
      simp_all [isReserved]
    exact hall (List.forall_mem_cons.mpr
      ⟨hname (by simp_all [startsName]), fun d hd => hname (hcs d hd)⟩)
  | string cs =>
    rw [text, ← List.cons_append]
    exact List.rdropWhile_concat_neg _ _ _ (by decide)
  | int negative ds =>
    refine hall fun c hc => ?_
    obtain hc | hc := List.mem_append.mp hc
    · exact hsign c hc
    · exact not_blank_of_digit (h.2 c hc)
  | float negative ds es =>
    obtain ⟨-, hds, hes⟩ := h
    refine hall fun c hc => ?_
    obtain hc | hc := List.mem_append.mp hc
    · obtain hc | hc := List.mem_append.mp hc
      · exact hsign c hc
      · exact not_blank_of_digit (hds c hc)
    · obtain rfl | hc := List.mem_cons.mp hc
      · rfl
      · exact not_blank_of_digit (hes c hc)

end Pattern

/-- **The longest match** of a token pattern at the front of a text; `rest` is what stands behind
it. -/
structure Longest (w : Pattern) (rest : List Char) : Prop where
  valid : w.Valid
  longest : ∀ v : Pattern, v.Valid → v.text <+: w.text ++ rest → v.text.length ≤ w.text.length

variable {w : Pattern} {c : Char} {cs rest : List Char}

/-- A longest match does not go on with the character behind it. -/
theorem Longest.not_extended (h : Longest w (c :: rest)) {v : Pattern} (hv : v.Valid) :
    v.text ≠ w.text ++ [c] := by
  intro htext
  have hfront : v.text <+: w.text ++ c :: rest := ⟨rest, by rw [htext, List.append_assoc]; rfl⟩
  have hlength := h.longest v hv hfront
  rw [htext, List.length_append, List.length_singleton] at hlength
  omega

/-- What matches at all has a longest match. -/
theorem exists_longest : ∀ {v : Pattern}, v.Valid → v.text <+: cs →
    ∃ w rest, cs = w.text ++ rest ∧ Longest w rest := by
  intro v hv hfront
  by_cases h : ∃ u : Pattern, u.Valid ∧ u.text <+: cs ∧ v.text.length < u.text.length
  · obtain ⟨u, hu, hufront, hlonger⟩ := h
    have hle := hufront.length_le
    exact exists_longest hu hufront
  · obtain ⟨rest, rfl⟩ := hfront
    exact ⟨v, rest, rfl, hv, fun u hu hufront =>
      Nat.le_of_not_lt fun hlonger => h ⟨u, hu, hufront, hlonger⟩⟩
termination_by v => cs.length - v.text.length

/-! ## Scanning a longest match -/

theorem scanNumber_fault {negative : Bool} {ds : List Char} (hall : ∀ c ∈ ds, isDigit c = true)
    (hn : Numeral.int64? negative (natural ds) = none)
    (hrest : ∀ c ∈ rest.head?, isDigit c = false ∧ c ≠ '.') :
    scanNumber negative (ds ++ rest) = .fault .integerOutOfRange (sign negative ++ ds) := by
  have hdigit : ∀ c ∈ rest.head?, isDigit c = false := fun c hc => (hrest c hc).1
  rw [scanNumber, takeWhile_append hall hdigit, dropWhile_append hall hdigit]
  split
  case h_1 => exact absurd rfl (hrest '.' rfl).2
  case h_2 =>
    rw [hn]
    rfl

/-- What the scanner makes of a match. -/
def Pattern.scanned (w : Pattern) (rest : List Char) : Scan :=
  match w.kind? with
  | some kind => .lexeme w.text kind rest
  | none => .fault .integerOutOfRange w.text

theorem forall_head?_iff {P : Char → Prop} :
    (∀ c ∈ rest.head?, P c) ↔ ∀ c cs, rest = c :: cs → P c := by
  cases rest <;> simp

namespace Longest

theorem clear {p : Punct} (h : Longest (.mark p) rest) : Clear p rest := by
  cases p with
  | pipe =>
    rw [Clear, forall_head?_iff]
    rintro c cs rfl rfl
    exact h.not_extended (v := .mark .doublePipe) trivial rfl
  | minus =>
    rw [Clear, forall_head?_iff]
    rintro c cs rfl
    constructor
    · rintro rfl
      exact h.not_extended (v := .mark .arrow) trivial rfl
    · rw [Bool.eq_false_iff]
      intro hc
      exact h.not_extended (v := .int true [c]) ⟨nofun, List.forall_mem_singleton.mpr hc⟩ rfl
  | _ => trivial

theorem name_ends (h : Longest (.name cs) rest) : ∀ c ∈ rest.head?, isReserved c = true := by
  rw [forall_head?_iff]
  rintro c behind rfl
  rw [← Bool.not_eq_false]
  intro hc
  obtain ⟨d, ds, rfl, hd, hds⟩ := h.valid
  refine h.not_extended (v := .name (d :: ds ++ [c])) ⟨d, ds ++ [c], rfl, hd, fun e he => ?_⟩ rfl
  obtain he | he := List.mem_append.mp he
  · exact hds e he
  · rwa [List.mem_singleton.mp he]

theorem int_ends {negative : Bool} {ds : List Char} (h : Longest (.int negative ds) rest) :
    ∀ c ∈ rest.head?, isDigit c = false ∧ c ≠ '.' := by
  obtain ⟨hne, hall⟩ := h.valid
  rw [forall_head?_iff]
  rintro c behind rfl
  constructor
  · rw [Bool.eq_false_iff]
    intro hc
    refine h.not_extended (v := .int negative (ds ++ [c])) ⟨by simp, fun d hd => ?_⟩
      (by simp [Pattern.text])
    obtain hd | hd := List.mem_append.mp hd
    · exact hall d hd
    · rwa [List.mem_singleton.mp hd]
  · rintro rfl
    exact h.not_extended (v := .float negative ds []) ⟨hne, hall, nofun⟩ rfl

theorem float_ends {negative : Bool} {ds es : List Char}
    (h : Longest (.float negative ds es) rest) : ∀ c ∈ rest.head?, isDigit c = false := by
  obtain ⟨hne, hall, hfraction⟩ := h.valid
  rw [forall_head?_iff]
  rintro c behind rfl
  rw [Bool.eq_false_iff]
  intro hc
  refine h.not_extended (v := .float negative ds (es ++ [c])) ⟨hne, hall, fun d hd => ?_⟩
    (by simp [Pattern.text])
  obtain hd | hd := List.mem_append.mp hd
  · exact hfraction d hd
  · rwa [List.mem_singleton.mp hd]

/-- **The longest match is scanned**, unless it is an integer that does not fit. -/
theorem scan (h : Longest w rest) : scan (w.text ++ rest) = w.scanned rest := by
  cases w with
  | mark p => exact scan_mark h.clear
  | name cs =>
    have hname : IsName (String.ofList cs).toList := by
      rw [String.toList_ofList]
      exact h.valid
    have hscan := scan_name hname h.name_ends
    rw [String.toList_ofList] at hscan
    exact hscan
  | string cs =>
    have hclosed : '\"' ∉ (String.ofList cs).toList := by
      rw [String.toList_ofList]
      exact h.valid
    have hscan := @scan_string rest _ hclosed
    rw [String.toList_ofList] at hscan
    exact hscan
  | int negative ds =>
    obtain ⟨hne, hall⟩ := h.valid
    rw [Pattern.text, scan_signed hne hall, Pattern.scanned, Pattern.kind?]
    cases hn : Numeral.int64? negative (natural ds) with
    | some n => exact scanNumber_int hall hn h.int_ends
    | none => exact scanNumber_fault hall hn h.int_ends
  | float negative ds es =>
    obtain ⟨hne, hall, hfraction⟩ := h.valid
    exact (Word.float hne hall hfraction h.float_ends).scan

end Longest

/-! ## Where nothing can be read -/

/-- The integer that a sign and digits denote. -/
def signed (negative : Bool) (ds : List Char) : Int :=
  if negative then -(natural ds : Int) else natural ds

theorem int64?_eq_none {negative : Bool} {ds : List Char}
    (h : Numeral.int64? negative (natural ds) = none) :
    signed negative ds < -9223372036854775808 ∨ 9223372036854775807 < signed negative ds := by
  rw [signed]
  cases negative with
  | true =>
    have hn : ¬ natural ds ≤ 9223372036854775808 := by simpa [Numeral.int64?] using h
    rw [if_pos rfl]
    omega
  | false =>
    have hn : ¬ natural ds < 9223372036854775808 := by simpa [Numeral.int64?] using h
    rw [if_neg Bool.false_ne_true]
    omega

/-- **What can be wrong with a text that starts with no token**: a quote that is never closed, an
equals sign that begins no `===`, or a longest match that is an integer outside the 64-bit range. -/
inductive Misspelled : List Char → SyntaxFault → Prop
  | string {cs : List Char} (unclosed : '\"' ∉ cs) : Misspelled ('\"' :: cs) .unterminatedString
  | equality {cs : List Char} (apart : ¬ ['=', '='] <+: cs) :
      Misspelled ('=' :: cs) .incompleteEquality
  | int {negative : Bool} {ds rest : List Char} (longest : Longest (.int negative ds) rest)
      (large : signed negative ds < -9223372036854775808 ∨
        9223372036854775807 < signed negative ds) :
      Misspelled ((Pattern.int negative ds).text ++ rest) .integerOutOfRange

theorem Misspelled.ne_nil {fault : SyntaxFault} (h : Misspelled cs fault) : cs ≠ [] := by
  cases h with
  | string | equality => nofun
  | int longest => exact List.append_ne_nil_of_left_ne_nil longest.valid.ne_nil _

/-- A match that has no token is an integer that does not fit. -/
theorem Longest.misspelled (h : Longest w rest) (hw : w.kind? = none) :
    Misspelled (w.text ++ rest) .integerOutOfRange := by
  cases w with
  | int negative ds => exact .int h (int64?_eq_none (Option.map_eq_none_iff.mp hw))
  | _ => cases hw

/-- Of the reserved characters only the equals sign and the quote are no marks. -/
theorem mark?_eq_none (hreserved : isReserved c = true) (hblank : isBlank c = false)
    (hquote : c ≠ '\"') (h : mark? (c :: cs) = none) : c = '=' ∧ ¬ ['=', '='] <+: cs := by
  unfold mark? at h
  split at h
  case h_17 hequality _ _ hpipe hminus hdot hless hgreater hparen hparen' hbracket hbracket' hbrace
      hbrace' hcolon hcomma =>
    simp only [isReserved, hblank, Bool.false_or, Bool.or_eq_true, beq_iff_eq] at hreserved
    obtain rfl : c = '=' := by simp_all
    refine ⟨rfl, ?_⟩
    rintro ⟨behind, rfl⟩
    exact hequality behind rfl
  all_goals cases h

/-- **Where no pattern matches** a quote is never closed, or an equals sign stands on its own.  The
text that is refused starts there. -/
theorem scan_unmatched (hc : isBlank c = false)
    (h : ∀ v : Pattern, v.Valid → ¬ v.text <+: c :: cs) :
    ∃ fault text, scan (c :: cs) = .fault fault text ∧ Misspelled (c :: cs) fault ∧
      text ≠ [] ∧ text <+: c :: cs := by
  have hsign : c ≠ '-' := by
    rintro rfl
    exact h (.mark .minus) trivial ⟨cs, rfl⟩
  have hdigit : ¬ isDigit c = true := fun hc =>
    h (.int false [c]) ⟨nofun, List.forall_mem_singleton.mpr hc⟩ ⟨cs, rfl⟩
  have hname : ¬ startsName c = true := fun hc => h (.name [c]) ⟨c, [], rfl, hc, nofun⟩ ⟨cs, rfl⟩
  by_cases hquote : c = '\"'
  · subst hquote
    have hunclosed : '\"' ∉ cs := by
      intro hmem
      obtain ⟨content, behind, rfl, hcontent⟩ := List.eq_append_cons_of_mem hmem
      exact h (.string content) hcontent ⟨behind, by simp [Pattern.text]⟩
    have hall : ∀ d ∈ cs, (d != '\"') = true := by
      intro d hd
      rw [bne_iff_ne]
      rintro rfl
      exact hunclosed hd
    have hbehind : cs.dropWhile (· != '\"') = [] := by
      rw [← List.append_nil cs]
      exact dropWhile_append hall nofun
    refine ⟨.unterminatedString, '\"' :: cs, ?_, .string hunclosed, List.cons_ne_nil _ _,
      List.prefix_rfl⟩
    rw [scan, if_pos rfl, scanString, hbehind]
  · have hreserved : isReserved c = true := by simpa [startsName, hdigit] using hname
    rw [scan, if_neg hquote, if_neg hdigit, if_neg (by simp [hsign]), if_neg hname]
    cases hmark : mark? (c :: cs) with
    | some p =>
      obtain ⟨behind, hbehind, -⟩ :=
        mark?_eq_some hmark fun ds hds => absurd (List.cons.inj hds).1 hsign
      exact absurd ⟨behind, hbehind.symm⟩ (h (.mark p) trivial)
    | none =>
      obtain ⟨rfl, hequality⟩ := mark?_eq_none hreserved hc hquote hmark
      exact ⟨_, _, rfl, .equality hequality, List.cons_ne_nil _ _, ['='].prefix_append cs⟩

end Lexer

end Ascription
