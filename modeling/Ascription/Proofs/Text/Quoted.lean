import Ascription.Proofs.Token.Lexes
import Ascription.Text.Quoted
import Mathlib.Tactic.SplitIfs

/-!
# Proofs/Text/Quoted — quoted text shows where it ends and what it quotes

    character ──escape──▸ characters ──unescape──▸ character

An escaped character reads back, whatever follows it, and a quotation mark is no escaped
character.  So quoted text can be cut off from what follows in one way only.
-/

namespace Ascription

namespace Quoted

open Lexer (takeWhile_append dropWhile_append)

/-! ## Hexadecimal digits -/

def hexDigitValue (c : Char) : Nat :=
  if c.isDigit then c.toNat - '0'.toNat else c.toNat - 'a'.toNat + 10

/-- The natural number that a run of hexadecimal digits denotes. -/
def hexValue (ds : List Char) : Nat := ds.foldl (fun n c => 16 * n + hexDigitValue c) 0

theorem hexDigitValue_digitChar : ∀ {d : Nat}, d < 16 → hexDigitValue d.digitChar = d := by decide

theorem hexValue_append {ds : List Char} {c : Char} :
    hexValue (ds ++ [c]) = 16 * hexValue ds + hexDigitValue c :=
  List.foldl_append

theorem hexValue_hex (n : Nat) : hexValue (hex n) = n := by
  induction n using Nat.strongRecOn with
  | ind n ih =>
  rw [hex, Nat.toDigits_eq_if (by decide)]
  split
  case isTrue hlt => exact (Nat.zero_add _).trans (hexDigitValue_digitChar hlt)
  case isFalse hge =>
    have hdiv : hexValue (Nat.toDigits 16 (n / 16)) = n / 16 := ih (n / 16) (by omega)
    rw [hexValue_append, hdiv, hexDigitValue_digitChar (Nat.mod_lt _ (by decide))]
    exact Nat.div_add_mod n 16

theorem brace_not_mem_hex (n : Nat) : ∀ c ∈ hex n, (c != '\x7d') = true := by
  induction n using Nat.strongRecOn with
  | ind n ih =>
  have hdigit : ∀ d : Nat, (d.digitChar != '\x7d') = true := fun d =>
    bne_iff_ne.mpr (Nat.digitChar_ne '\x7d' rfl)
  rw [hex, Nat.toDigits_eq_if (by decide)]
  split
  case isTrue => exact List.forall_mem_singleton.mpr (hdigit n)
  case isFalse =>
    intro c hc
    obtain hc | hc := List.mem_append.mp hc
    · exact ih (n / 16) (by omega) c hc
    · rw [List.mem_singleton.mp hc]
      exact hdigit _

/-! ## One character -/

/-- **One character read back**, and what follows it; none at the closing mark. -/
def unescape : List Char → Option (Char × List Char)
  | [] | '\"' :: _ => none
  | '\\' :: '\"' :: rest => some ('\"', rest)
  | '\\' :: '\\' :: rest => some ('\\', rest)
  | '\\' :: 't' :: rest => some ('\t', rest)
  | '\\' :: 'r' :: rest => some ('\r', rest)
  | '\\' :: 'n' :: rest => some ('\n', rest)
  | '\\' :: '0' :: rest => some (Char.ofNat 0, rest)
  | '\\' :: 'u' :: '\x7b' :: rest =>
    some (Char.ofNat (hexValue (rest.takeWhile (· != '\x7d'))),
      (rest.dropWhile (· != '\x7d')).drop 1)
  | c :: rest => some (c, rest)

theorem unescape_escape (c : Char) (rest : List Char) :
    unescape (escape c ++ rest) = some (c, rest) := by
  have hnumber : unescape ('\\' :: 'u' :: '\x7b' :: (hex c.toNat ++ ['\x7d']) ++ rest) =
      some (c, rest) := by
    -- the number ends at the brace, which is no hexadecimal digit
    have hends : ∀ d ∈ ('\x7d' :: rest).head?, (d != '\x7d') = false := by
      rintro _ ⟨⟩
      rfl
    have hsplit : '\\' :: 'u' :: '\x7b' :: (hex c.toNat ++ ['\x7d']) ++ rest =
        '\\' :: 'u' :: '\x7b' :: (hex c.toNat ++ '\x7d' :: rest) := by simp
    rw [hsplit, unescape, takeWhile_append (brace_not_mem_hex _) hends,
      dropWhile_append (brace_not_mem_hex _) hends, hexValue_hex, Char.ofNat_toNat]
    rfl
  have hzero : c.toNat = 0 → Char.ofNat 0 = c := fun h => by rw [← h, Char.ofNat_toNat]
  rw [escape]
  split_ifs with h₁ h₂ h₃ h₄ h₅ h₆ h₇
  · rw [h₁]; rfl
  · rw [h₂]; rfl
  · rw [h₃]; rfl
  · rw [h₄]; rfl
  · rw [h₅]; rfl
  · exact congrArg (fun c => some (c, rest)) (hzero h₆)
  · exact hnumber
  · rw [List.singleton_append, unescape] <;> simp_all

/-! ## The whole text -/

theorem escaped_append_inj : ∀ {cs ds r r' : List Char},
    cs.flatMap escape ++ '\"' :: r = ds.flatMap escape ++ '\"' :: r' → cs = ds ∧ r = r'
  | [], [], _, _, h => ⟨rfl, List.tail_eq_of_cons_eq h⟩
  | [], d :: ds, _, _, h => by
    have h := congrArg unescape h
    rw [List.flatMap_cons, List.append_assoc, unescape_escape] at h
    cases h
  | c :: cs, [], _, _, h => by
    have h := congrArg unescape h
    rw [List.flatMap_cons, List.append_assoc, unescape_escape] at h
    cases h
  | c :: cs, d :: ds, _, _, h => by
    have h := congrArg unescape h
    simp only [List.flatMap_cons, List.append_assoc, unescape_escape] at h
    obtain ⟨rfl, h⟩ := Prod.ext_iff.mp (Option.some.inj h)
    obtain ⟨rfl, rfl⟩ := escaped_append_inj h
    exact ⟨rfl, rfl⟩

end Quoted

/-- **Quoted text shows where it ends**: two such texts at one place quote the same and are
followed by the same. -/
theorem quoted_append_inj {s t : String} {r r' : List Char}
    (h : (quoted s).toList ++ r = (quoted t).toList ++ r') : s = t ∧ r = r' := by
  rw [quoted, quoted, String.toList_ofList, String.toList_ofList] at h
  simp only [List.cons_append, List.append_assoc, List.nil_append] at h
  obtain ⟨hst, hr⟩ := Quoted.escaped_append_inj (List.tail_eq_of_cons_eq h)
  exact ⟨String.toList_inj.mp hst, hr⟩

end Ascription
