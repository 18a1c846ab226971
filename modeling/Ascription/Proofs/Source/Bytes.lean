import Ascription.Source.LineMap
import Mathlib.Data.String.Basic

/-!
# Proofs/Source/Bytes — the bytes of a text, and where the line breaks are among them

A line break is one byte, and no byte of another character is that byte: the others are either the
codes of single bytes themselves or have their highest bit set.
-/

namespace Ascription

open String (utf8EncodeChar utf8Len)

variable {cs ds : List Char} {c : Char}

theorem byteLength_eq_utf8Len : byteLength cs = utf8Len cs := by
  induction cs with
  | nil => rfl
  | cons c cs ih => rw [byteLength, ih, String.utf8Len_cons, Nat.add_comm]

theorem byteLength_append : byteLength (cs ++ ds) = byteLength cs + byteLength ds := by
  simp only [byteLength_eq_utf8Len, String.utf8Len_append]

theorem byteLength_pos (h : cs ≠ []) : 0 < byteLength cs := by
  obtain ⟨c, cs, rfl⟩ := List.exists_cons_of_ne_nil h
  exact Nat.add_pos_left c.utf8Size_pos _

theorem byteLength_replicate {n : Nat} : byteLength (List.replicate n c) = n * c.utf8Size := by
  induction n with
  | zero => rw [Nat.zero_mul, List.replicate_zero, byteLength]
  | succ n ih => rw [List.replicate_succ, byteLength, ih, Nat.succ_mul, Nat.add_comm]

namespace LineMap

/-- The bytes of characters. -/
def encode (cs : List Char) : List UInt8 := cs.flatMap utf8EncodeChar

theorem bytes_eq {source : String} : bytes source = encode source.toList := by
  rw [bytes, ← String.utf8Encode_toList]
  exact List.toList_data_toByteArray

theorem encode_append : encode (cs ++ ds) = encode cs ++ encode ds := List.flatMap_append

theorem encode_cons : encode (c :: cs) = utf8EncodeChar c ++ encode cs := List.flatMap_cons

theorem length_encode : (encode cs).length = byteLength cs := by
  induction cs with
  | nil => rfl
  | cons c cs ih =>
    rw [encode_cons, List.length_append, ih, String.length_utf8EncodeChar, byteLength]

theorem length_bytes {source : String} : (bytes source).length = source.utf8ByteSize := by
  rw [bytes, Array.length_toList]
  rfl

theorem utf8ByteSize_eq {source : String} (h : source.toList = cs ++ ds) :
    source.utf8ByteSize = byteLength cs + byteLength ds := by
  rw [← length_bytes, bytes_eq, h, length_encode, byteLength_append]

theorem highBit_or {x m : UInt8} (hm : m.toNat.testBit 7 = true) :
    (x ||| m).toNat.testBit 7 = true := by
  rw [UInt8.toNat_or, Nat.testBit_or, hm, Bool.or_true]

/-- The bytes of a character of several bytes have their highest bit set. -/
theorem highBit_of_mem (h : c.utf8Size ≠ 1) : ∀ b ∈ utf8EncodeChar c, b.toNat.testBit 7 = true := by
  obtain h1 | h2 | h3 | h4 := Char.utf8Size_eq c
  · exact absurd h1 h
  · rw [String.utf8EncodeChar_eq_cons_cons h2]
    simp only [List.forall_mem_cons]
    exact ⟨highBit_or (by decide), highBit_or (by decide), List.forall_mem_nil _⟩
  · rw [String.utf8EncodeChar_eq_cons_cons_cons h3]
    simp only [List.forall_mem_cons]
    exact ⟨highBit_or (by decide), highBit_or (by decide), highBit_or (by decide),
      List.forall_mem_nil _⟩
  · rw [String.utf8EncodeChar_eq_cons_cons_cons_cons h4]
    simp only [List.forall_mem_cons]
    exact ⟨highBit_or (by decide), highBit_or (by decide), highBit_or (by decide),
      highBit_or (by decide), List.forall_mem_nil _⟩

theorem encode_lineBreak : utf8EncodeChar '\n' = [lineBreak] := by decide

/-- **Only the line break is encoded with its byte.** -/
theorem lineBreak_notMem (h : c ≠ '\n') : lineBreak ∉ utf8EncodeChar c := by
  intro hmem
  by_cases hsize : c.utf8Size = 1
  · rw [String.utf8EncodeChar_eq_singleton hsize, List.mem_singleton] at hmem
    have hascii : c.val.toNat ≤ 127 := UInt32.le_iff_toNat_le.mp (Char.utf8Size_eq_one_iff.mp hsize)
    have hcode : 10 = c.val.toNat % 2 ^ 8 := by
      have hmem := congrArg UInt8.toNat hmem
      rwa [UInt32.toNat_toUInt8] at hmem
    refine h (Char.ext (UInt32.toNat_inj.mp ?_))
    change c.val.toNat = 10
    omega
  · exact absurd (highBit_of_mem hsize _ hmem) (by decide)

/-- A character that is no line break has a byte that is none. -/
theorem exists_mem_encode (h : c ∈ cs) (hc : c ≠ '\n') : ∃ b ∈ encode cs, b ≠ lineBreak := by
  have hne : utf8EncodeChar c ≠ [] := by
    rw [← List.length_pos_iff, String.length_utf8EncodeChar]
    exact c.utf8Size_pos
  obtain ⟨b, bs, hbs⟩ := List.exists_cons_of_ne_nil hne
  have hb : b ∈ utf8EncodeChar c := hbs ▸ List.mem_cons_self
  refine ⟨b, List.mem_flatMap.mpr ⟨c, h, hb⟩, ?_⟩
  rintro rfl
  exact lineBreak_notMem hc hb

theorem lineBreak_notMem_encode (h : '\n' ∉ cs) : lineBreak ∉ encode cs := by
  intro hmem
  obtain ⟨c, hc, hmem⟩ := List.mem_flatMap.mp hmem
  exact lineBreak_notMem (fun hbreak => h (hbreak ▸ hc)) hmem

end LineMap

end Ascription
