import Ascription.Proofs.Source.LineMap
import Mathlib.Data.List.Basic

/-!
# Proofs/Source/Lines — the lines of a text, and where its bytes stand in them

    source  =  line₁ \n line₂ \n … \n lineₙ        starts  =  0, |line₁| + 1, …

Each line runs from its start up to the line break before the next start, or to the end of the text,
so joining the lines by line breaks gives the text.  The line of an offset starts at the last line
start up to it: a byte that is no line break has as many bytes before it there as its column says,
the column itself being counted from one.

All of it is for texts whose places are words.  One byte less than a word has values is too long for
a text without a line break, and for a text of line breaks only.
-/

namespace Ascription

namespace LineMap

variable {source : String} {before after : List UInt8}

/-! ## Slices -/

theorem isValid_of_append {cs ds : List Char} (h : source.toList = cs ++ ds) :
    String.Pos.Raw.IsValid source ⟨byteLength cs⟩ := by
  refine String.Pos.Raw.isValid_iff_exists_append.mpr
    ⟨String.ofList cs, String.ofList ds, ?_, ?_⟩
  · rw [← String.ofList_append, ← h, String.ofList_toList]
  · rw [String.Pos.Raw.ext_iff, String.byteIdx_rawEndPos, String.utf8ByteSize_ofList,
      byteLength_eq_utf8Len]

/-- The bytes of a slice. -/
theorem bytes_of_slice? {start stop : Nat} {t : String} (h : slice? source start stop = some t) :
    bytes t = ((bytes source).drop start).take (stop - start) := by
  rw [slice?] at h
  split at h
  case isFalse => cases h
  case isTrue =>
    cases h
    rw [bytes, String.toByteArray_extract, ByteArray.data_extract, Array.toList_extract,
      List.extract_eq_take_drop, String.offset_pos, String.offset_pos, bytes]

/-- **A slice between characters** is the text between them. -/
theorem slice?_eq {cs line ds : List Char} (h : source.toList = cs ++ line ++ ds) :
    slice? source (byteLength cs) (byteLength cs + byteLength line) =
      some (String.ofList line) := by
  have hstart : String.Pos.Raw.IsValid source ⟨byteLength cs⟩ :=
    isValid_of_append (by rw [h, List.append_assoc])
  have hstop : String.Pos.Raw.IsValid source ⟨byteLength cs + byteLength line⟩ := by
    rw [← byteLength_append]
    exact isValid_of_append h
  obtain ⟨t, ht⟩ : ∃ t, slice? source (byteLength cs) (byteLength cs + byteLength line) = some t :=
    ⟨_, dif_pos ⟨Nat.le_add_right _ _, hstart, hstop⟩⟩
  have hbytes : bytes t = encode line := by
    rw [bytes_of_slice? ht, bytes_eq, h, encode_append, encode_append, ← length_encode,
      ← length_encode, Nat.add_sub_cancel_left, List.append_assoc, List.drop_left, List.take_left]
  have hline : bytes (String.ofList line) = encode line := by rw [bytes_eq, String.toList_ofList]
  rw [ht, Option.some.injEq, ← String.toByteArray_inj]
  exact ByteArray.ext (Array.toList_inj.mp (hbytes.trans hline.symm))

/-! ## Lines -/

/-- Induction over the lines of a text. -/
@[elab_as_elim]
theorem lineInduction {motive : List Char → Prop} (last : ∀ line, '\n' ∉ line → motive line)
    (next : ∀ line rest, '\n' ∉ line → motive rest → motive (line ++ '\n' :: rest))
    (cs : List Char) : motive cs := by
  by_cases h : '\n' ∈ cs
  · obtain ⟨line, rest, hcs, hline⟩ := List.eq_append_cons_of_mem h
    rw [hcs]
    exact next line rest hline (lineInduction last next rest)
  · exact last cs h
termination_by cs.length
decreasing_by
  rw [hcs, List.length_append, List.length_cons]
  omega

/-- The lines of a text. -/
def lines (source : String) : List String := (source.toList.splitOn '\n').map String.ofList

/-- **Joined, the lines are the text.** -/
theorem intercalate_lines : "\n".intercalate (lines source) = source := by
  have hmap : ((source.toList.splitOn '\n').map String.ofList).map String.toList =
      source.toList.splitOn '\n' := by
    rw [List.map_map]
    exact List.map_id'' (fun cs => String.toList_ofList) _
  refine String.toList_inj.mp ?_
  rw [String.toList_intercalate, lines, hmap]
  exact List.intercalate_splitOn '\n'

theorem length_splitOn {cs : List Char} :
    (cs.splitOn '\n').length = (encode cs).count lineBreak + 1 := by
  induction cs using lineInduction with
  | last line hline =>
    rw [List.splitOn_eq_singleton hline, List.count_eq_zero.mpr (lineBreak_notMem_encode hline)]
    rfl
  | next line rest hline ih =>
    rw [List.splitOn_append_cons_self_of_not_mem hline, List.length_cons, ih, encode_append,
      encode_cons, encode_lineBreak, List.count_append,
      List.count_eq_zero.mpr (lineBreak_notMem_encode hline), List.singleton_append,
      List.count_cons_self, Nat.zero_add]

theorem length_lines : (lines source).length = (ofSource source).starts.length := by
  rw [lines, List.length_map, length_splitOn, starts_ofSource, List.length_map, length_startsOf,
    bytes_eq]

/-- The start of the line behind the one that an offset is in. -/
theorem next_start_eq (h : bytes source = before ++ after)
    (hsize : source.utf8ByteSize < wordSize) :
    (ofSource source).starts[before.count lineBreak + 1]? =
      (startsAfter before.length after)[0]? := by
  rw [starts_eq hsize, h, startsOf_append, ← length_startsOf,
    List.getElem?_append_right (Nat.le_refl _), Nat.sub_self]

/-- The text of the line at a start. -/
theorem lineText_eq {i : Nat} : (ofSource source).lineText (i + 1) =
    (ofSource source).starts[i]?.bind fun start => slice? source start
      (((ofSource source).starts[i + 1]?.map (· - 1)).getD source.utf8ByteSize) := rfl

/-- **The text of a line** that starts behind `cs` and that `rest` breaks off. -/
theorem lineText_of_append (hsize : source.utf8ByteSize < wordSize) {cs line rest : List Char}
    (h : source.toList = cs ++ line ++ rest)
    (hstart : lastStart (encode cs) = (encode cs).length) (hline : '\n' ∉ line)
    (hrest : rest = [] ∨ ∃ rest', rest = '\n' :: rest') :
    (ofSource source).lineText ((encode cs).count lineBreak + 1) = some (String.ofList line) := by
  have hbytes : bytes source = encode cs ++ encode (line ++ rest) := by
    rw [bytes_eq, h, List.append_assoc, encode_append]
  have hstop : (((startsAfter (encode cs).length (encode (line ++ rest)))[0]?.map (· - 1)).getD
      source.utf8ByteSize) = byteLength cs + byteLength line := by
    rw [encode_append, startsAfter_append, startsAfter_eq_nil (lineBreak_notMem_encode hline),
      List.nil_append]
    obtain rfl | ⟨rest', rfl⟩ := hrest
    · have hlength := utf8ByteSize_eq h
      rw [byteLength_append] at hlength
      exact hlength
    · rw [encode_cons, encode_lineBreak, List.singleton_append, startsAfter, if_pos rfl,
        length_encode, length_encode]
      rfl
  rw [lineText_eq, start_eq hbytes hsize, next_start_eq hbytes hsize, hstop, hstart, length_encode]
  exact slice?_eq h

theorem lineText_eq_none {i : Nat} (h : (ofSource source).starts.length ≤ i) :
    (ofSource source).lineText (i + 1) = none := by
  rw [lineText_eq, List.getElem?_eq_none h]
  rfl

/-- The lines of what stands behind a line start, one by one. -/
theorem lineText_splitOn (hsize : source.utf8ByteSize < wordSize) {cs rest : List Char}
    (h : source.toList = cs ++ rest)
    (hstart : lastStart (encode cs) = (encode cs).length) (i : Nat) :
    (ofSource source).lineText ((encode cs).count lineBreak + i + 1) =
      ((rest.splitOn '\n').map String.ofList)[i]? := by
  induction rest using lineInduction generalizing cs i with
  | last line hline =>
    rw [List.splitOn_eq_singleton hline]
    cases i with
    | zero =>
      have hline := lineText_of_append hsize (by rw [h, List.append_nil]) hstart hline (.inl rfl)
      rw [Nat.add_zero, hline]
      rfl
    | succ i =>
      have hbytes : bytes source = encode cs ++ encode line := by rw [bytes_eq, h, encode_append]
      have hlength : (ofSource source).starts.length = (encode cs).count lineBreak + 1 := by
        rw [starts_eq hsize, hbytes, startsOf_append,
          startsAfter_eq_nil (lineBreak_notMem_encode hline), List.append_nil, length_startsOf]
      rw [lineText_eq_none (by omega), List.map_singleton]
      rfl
  | next line rest hline ih =>
    rw [List.splitOn_append_cons_self_of_not_mem hline]
    have hsplit : source.toList = cs ++ line ++ '\n' :: rest := by rw [h, List.append_assoc]
    cases i with
    | zero =>
      have hline := lineText_of_append hsize hsplit hstart hline (.inr ⟨rest, rfl⟩)
      rw [Nat.add_zero, hline]
      rfl
    | succ i =>
      -- The rest starts behind the line break.
      have hfront : encode (cs ++ line ++ ['\n']) = encode (cs ++ line) ++ [lineBreak] := by
        rw [encode_append, encode_cons, encode_lineBreak]
        rfl
      have hlast : lastStart (encode (cs ++ line ++ ['\n'])) =
          (encode (cs ++ line ++ ['\n'])).length := by
        rw [hfront, lastStart_concat, if_pos rfl, List.length_append]
        rfl
      have hcount : (encode (cs ++ line ++ ['\n'])).count lineBreak =
          (encode cs).count lineBreak + 1 := by
        rw [hfront, encode_append, List.count_append, List.count_append,
          List.count_eq_zero.mpr (lineBreak_notMem_encode hline)]
        rfl
      have hrest := @ih (cs ++ line ++ ['\n']) (by simpa using h) hlast i
      rw [hcount, Nat.add_assoc _ 1 i, Nat.add_comm 1 i] at hrest
      rw [hrest]
      rfl

/-- **The text of each line**, and of no other. -/
theorem lineText_getElem? (hsize : source.utf8ByteSize < wordSize) {n : Nat} :
    (ofSource source).lineText n = if n = 0 then none else (lines source)[n - 1]? := by
  cases n with
  | zero => rfl
  | succ i =>
    have hline := @lineText_splitOn source hsize [] source.toList rfl rfl i
    rw [if_neg (Nat.succ_ne_zero i), Nat.add_sub_cancel, lines, ← hline]
    simp [encode]

/-! ## Places -/

/-- The places of a text are words: one byte less than a word has values is the most a text may
have, and only if it has line breaks and other bytes. -/
structure Fits (source : String) : Prop where
  size_lt : source.utf8ByteSize < wordSize
  broken : source.utf8ByteSize + 1 = wordSize → lineBreak ∈ bytes source
  filled : source.utf8ByteSize + 1 = wordSize → ∃ b ∈ bytes source, b ≠ lineBreak

theorem Fits.starts_length_lt (h : Fits source) : (ofSource source).starts.length < wordSize := by
  have hlength : (bytes source).length = source.utf8ByteSize := length_bytes
  have hle : (bytes source).count lineBreak ≤ (bytes source).length := List.count_le_length
  have hlt := h.size_lt
  rw [starts_eq hlt, length_startsOf]
  by_cases hsize : source.utf8ByteSize + 1 = wordSize
  · obtain ⟨b, hb, hne⟩ := h.filled hsize
    have hcount : (bytes source).count lineBreak ≠ (bytes source).length := fun heq =>
      hne (List.count_eq_length.mp heq b hb).symm
    omega
  · omega

theorem Fits.column_lt (h : Fits source) (hbytes : bytes source = before ++ after) :
    before.length - lastStart before + 1 < wordSize := by
  have hsum : before.length + after.length = source.utf8ByteSize := length_add_length hbytes
  have hlt := h.size_lt
  by_cases hsize : source.utf8ByteSize + 1 = wordSize ∧ after = []
  · -- The whole text ends in a later line than its first.
    obtain ⟨hsize, rfl⟩ := hsize
    rw [List.append_nil] at hbytes
    have hbreak : lineBreak ∈ before := hbytes ▸ h.broken hsize
    have hlast : 0 < lastStart before := by
      have hne : startsAfter 0 before ≠ [] := by
        rw [← List.length_pos_iff, length_startsAfter]
        exact List.count_pos_iff.mpr hbreak
      have hmem : lastStart before ∈ startsAfter 0 before := by
        rw [lastStart]
        simp only [startsOf, List.getLast_cons hne]
        exact List.getLast_mem hne
      exact (mem_startsAfter hmem).1
    have hle : lastStart before ≤ before.length := lastStart_le
    rw [List.length_nil] at hsum
    omega
  · have hpos : source.utf8ByteSize + 1 = wordSize → 0 < after.length := fun heq =>
      List.length_pos_iff.mpr fun hnil => hsize ⟨heq, hnil⟩
    omega

/-- **The place of an offset** in a text whose places are words. -/
theorem Fits.position_eq (h : Fits source) (hbytes : bytes source = before ++ after) :
    (ofSource source).position before.length = Position.first.passAll before := by
  have hline : before.count lineBreak + 1 < wordSize := by
    have hlt := h.starts_length_lt
    rw [starts_eq h.size_lt, hbytes, startsOf_append, List.length_append, length_startsOf] at hlt
    omega
  rw [LineMap.position_eq hbytes h.size_lt, passAll_first]
  exact Position.word_eq hline (h.column_lt hbytes)

theorem Fits.position_take (h : Fits source) {k : Nat} (hk : k ≤ source.utf8ByteSize) :
    (ofSource source).position k = Position.first.passAll ((bytes source).take k) := by
  have hposition := h.position_eq (List.take_append_drop k (bytes source)).symm
  rwa [List.length_take_of_le (length_bytes ▸ hk)] at hposition

/-- A later offset has a later place. -/
theorem Fits.position_lt (h : Fits source) {a b : Nat} (hab : a < b)
    (hb : b ≤ source.utf8ByteSize) :
    (ofSource source).position a < (ofSource source).position b :=
  LineMap.position_lt h.size_lt hab hb (h.position_take hb)

/-- **A byte that is no line break stands in the line of its offset**, at the index below its
column. -/
theorem Fits.getElem?_lineText (h : Fits source) {k : Nat} {b : UInt8}
    (hk : (bytes source)[k]? = some b) (hb : b ≠ lineBreak) :
    ∃ line, (ofSource source).lineText ((ofSource source).position k).line = some line ∧
      (bytes line)[((ofSource source).position k).column - 1]? = some b := by
  obtain ⟨hlt, hget⟩ := List.getElem?_eq_some_iff.mp hk
  obtain ⟨before, after, hbytes, hlength⟩ :
      ∃ before after, bytes source = before ++ b :: after ∧ before.length = k := by
    refine ⟨(bytes source).take k, (bytes source).drop (k + 1), ?_,
      List.length_take_of_le hlt.le⟩
    rw [← hget, List.getElem_cons_drop, List.take_append_drop]
  subst hlength
  have hle : lastStart before ≤ before.length := lastStart_le
  rw [h.position_eq hbytes, passAll_first]
  dsimp only
  obtain ⟨line, hline⟩ : ∃ line,
      (ofSource source).lineText (before.count lineBreak + 1) = some line := by
    rw [lineText_getElem? h.size_lt, if_neg (Nat.succ_ne_zero _), Nat.add_sub_cancel]
    refine ⟨_, List.getElem?_eq_getElem ?_⟩
    rw [length_lines, starts_eq h.size_lt, hbytes, startsOf_append, List.length_append,
      length_startsOf]
    omega
  refine ⟨line, hline, ?_⟩
  -- The line ends behind the byte: the next line break stands behind it.
  have hstop : before.length < ((startsAfter before.length (b :: after))[0]?.map (· - 1)).getD
      source.utf8ByteSize := by
    rw [startsAfter, if_neg hb]
    cases hnext : startsAfter (before.length + 1) after with
    | nil => exact length_bytes ▸ hlt
    | cons s rest =>
      have hs : before.length + 1 < s := (mem_startsAfter (hnext ▸ List.mem_cons_self)).1
      change before.length < s - 1
      omega
  rw [lineText_eq, start_eq hbytes h.size_lt, next_start_eq hbytes h.size_lt] at hline
  rw [bytes_of_slice? hline, Nat.add_sub_cancel, List.getElem?_take_of_lt (by omega),
    List.getElem?_drop, Nat.add_sub_cancel' hle, hk]

/-- **The line map agrees with the text.**  Later offsets have later places, the line of an offset
counts the line breaks before it, the texts of the lines are those that the line breaks leave of the
text, and each byte of a line stands where the place of its offset says. -/
theorem agrees_with_source (h : Fits source) :
    (∀ a b, a < b → b ≤ source.utf8ByteSize →
      (ofSource source).position a < (ofSource source).position b) ∧
    (∀ k ≤ source.utf8ByteSize, ((ofSource source).position k).line =
      1 + ((bytes source).take k).count lineBreak) ∧
    (∃ lines : List String, "\n".intercalate lines = source ∧
      lines.length = (ofSource source).lineCount ∧
      ∀ n, (ofSource source).lineText n = if n = 0 then none else lines[n - 1]?) ∧
    ∀ k b, (bytes source)[k]? = some b → b ≠ lineBreak →
      ∃ line, (ofSource source).lineText ((ofSource source).position k).line = some line ∧
        (bytes line)[((ofSource source).position k).column - 1]? = some b := by
  refine ⟨fun a b => h.position_lt, fun k hk => ?_, ⟨lines source, intercalate_lines, ?_,
    fun n => lineText_getElem? h.size_lt⟩, fun k b => h.getElem?_lineText⟩
  · rw [h.position_take hk, passAll_first, Nat.add_comm]
  · rw [length_lines, lineCount, Nat.mod_eq_of_lt h.starts_length_lt]

/-- The same for a text of three lines, of which the last is empty. -/
theorem agrees_with_source_lines : Fits "a\né\n" ∧
    (ofSource "a\né\n").position 2 < (ofSource "a\né\n").position 4 :=
  have hfits : Fits "a\né\n" :=
    ⟨by decide, fun h => absurd h (by decide), fun h => absurd h (by decide)⟩
  ⟨hfits, (agrees_with_source hfits).1 2 4 (by decide) (by decide)⟩

/-! ## Texts that are too long -/

/-- **The places of a text without a line break** are in its first line, however long it is: the
column alone is what is left of a larger number. -/
theorem position_of_unbroken (h : lineBreak ∉ bytes source) {k : Nat} :
    (ofSource source).position k = ⟨1, (k + 1) % wordSize⟩ := by
  have hstarts : (ofSource source).starts = [0] := by
    rw [starts_ofSource, startsOf, startsAfter_eq_nil h]
    rfl
  have hindex : (ofSource source).lineIndex (k % wordSize) = 0 := by
    have hsearch := @search_append (k % wordSize) [] [] 0 (List.pairwise_singleton _ _)
      (Nat.zero_le _) (List.forall_mem_nil _)
    rw [List.nil_append] at hsearch
    rw [lineIndex, hstarts, hsearch]
    by_cases hzero : 0 = k % wordSize
    · rw [if_pos hzero]
      rfl
    · rw [if_neg hzero]
      rfl
  rw [position, hindex, hstarts, List.getD_cons_zero, Nat.sub_zero, Nat.add_right_comm,
    Nat.add_mod_right, Nat.mod_add_mod]
  rfl

section Replicate

variable {c : Char} {b : UInt8} {n k : Nat}

theorem bytes_replicate (hc : String.utf8EncodeChar c = [b]) :
    bytes (String.ofList (List.replicate n c)) = List.replicate n b := by
  rw [bytes_eq, String.toList_ofList]
  induction n with
  | zero => rfl
  | succ n ih =>
    rw [List.replicate_succ, encode_cons, ih, hc]
    rfl

theorem utf8ByteSize_replicate (hc : String.utf8EncodeChar c = [b]) :
    (String.ofList (List.replicate n c)).utf8ByteSize = n := by
  rw [← length_bytes, bytes_replicate hc, List.length_replicate]

/-- The places in one line, of which the column is a word. -/
theorem position_replicate (hc : String.utf8EncodeChar c = [b]) (hb : lineBreak ≠ b) :
    (ofSource (String.ofList (List.replicate n c))).position k = ⟨1, (k + 1) % wordSize⟩ := by
  refine position_of_unbroken ?_
  rw [bytes_replicate hc]
  exact fun hmem => hb (List.eq_of_mem_replicate hmem)

theorem lineCount_replicate :
    (ofSource (String.ofList (List.replicate n '\n'))).lineCount = (n + 1) % wordSize := by
  rw [lineCount, starts_ofSource, List.length_map, length_startsOf,
    bytes_replicate encode_lineBreak, List.count_replicate_self]

end Replicate

/-- In `2 ^ 32 - 1` bytes without a line break the column behind the last is zero, so that the place
there is before every other; and of as many line breaks the line map counts no line. -/
theorem position_not_always_increasing :
    (String.ofList (List.replicate 4294967295 'a')).utf8ByteSize < wordSize ∧
    ¬ (ofSource (String.ofList (List.replicate 4294967295 'a'))).position 4294967294 <
      (ofSource (String.ofList (List.replicate 4294967295 'a'))).position 4294967295 ∧
    (String.ofList (List.replicate 4294967295 '\n')).utf8ByteSize < wordSize ∧
    (ofSource (String.ofList (List.replicate 4294967295 '\n'))).lineCount = 0 := by
  have ha : String.utf8EncodeChar 'a' = [97] := by decide
  have hsize : 4294967295 < wordSize := by decide
  rw [utf8ByteSize_replicate ha, utf8ByteSize_replicate encode_lineBreak, lineCount_replicate,
    position_replicate ha (by decide), position_replicate ha (by decide)]
  exact ⟨hsize, by decide, hsize, by decide⟩

end LineMap

end Ascription
