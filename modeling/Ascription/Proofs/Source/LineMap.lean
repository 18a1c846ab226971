import Ascription.Proofs.Source.Bytes
import Ascription.Proofs.Source.Span
import Mathlib.Data.List.Induction

/-!
# Proofs/Source/LineMap — the place of an offset is the place that reading reaches

    bytes  =  before ++ after        bytes of `before`  ──position──▸  the place behind `before`

The line starts up to an offset are those in the bytes before it, so their number is the line, and
the last of them counts the column.  In a text whose offsets are words a line or a column wraps in
one place at most, at the end of `2 ^ 32 - 1` bytes.
-/

namespace Ascription

/-! ## Reading bytes -/

namespace Position

variable {p : Position} {b : UInt8}

/-- The place behind a byte. -/
def pass (p : Position) (b : UInt8) : Position :=
  if b = LineMap.lineBreak then ⟨p.line + 1, 1⟩ else ⟨p.line, p.column + 1⟩

/-- The place behind a run of bytes. -/
def passAll (p : Position) (bs : List UInt8) : Position := bs.foldl pass p

theorem lt_pass : p < p.pass b := by
  rw [lt_iff, pass]
  split
  · exact .inl (Nat.lt_succ_self _)
  · exact .inr ⟨rfl, Nat.lt_succ_self _⟩

theorem passAll_append {bs bs' : List UInt8} :
    p.passAll (bs ++ bs') = (p.passAll bs).passAll bs' := List.foldl_append

theorem le_passAll {bs : List UInt8} : p ≤ p.passAll bs := by
  induction bs generalizing p with
  | nil => exact le_rfl
  | cons b bs ih => exact le_trans (le_of_lt lt_pass) (ih (p := p.pass b))

/-- Bytes move the place on. -/
theorem lt_passAll {bs : List UInt8} (h : bs ≠ []) : p < p.passAll bs := by
  cases bs with
  | nil => exact absurd rfl h
  | cons b bs => exact lt_of_lt_of_le lt_pass (le_passAll (p := p.pass b))

/-- Bytes among which is no line break only count. -/
theorem passAll_of_notMem {bs : List UInt8} (h : LineMap.lineBreak ∉ bs) :
    p.passAll bs = ⟨p.line, p.column + bs.length⟩ := by
  induction bs generalizing p with
  | nil => rfl
  | cons b bs ih =>
    obtain ⟨hb, hbs⟩ := List.ne_and_not_mem_of_not_mem_cons h
    have hpass : p.pass b = ⟨p.line, p.column + 1⟩ := if_neg (Ne.symm hb)
    change (p.pass b).passAll bs = _
    rw [ih hbs, hpass, List.length_cons, Nat.add_comm bs.length, Nat.add_assoc]

/-- A character moves the place on as its bytes do. -/
theorem passAll_encode {cs : List Char} : p.passAll (LineMap.encode cs) = p.advanceAll cs := by
  induction cs generalizing p with
  | nil => rfl
  | cons c cs ih =>
    have hc : p.passAll (String.utf8EncodeChar c) = p.advance c := by
      by_cases hbreak : c = '\n'
      · subst hbreak
        rw [LineMap.encode_lineBreak]
        rfl
      · rw [passAll_of_notMem (LineMap.lineBreak_notMem hbreak), String.length_utf8EncodeChar,
          advance, if_neg hbreak]
    rw [LineMap.encode_cons, passAll_append, hc, ih]
    rfl

end Position

/-- **What is left of a place** whose line and column are words. -/
def Position.word (p : Position) : Position :=
  ⟨p.line % LineMap.wordSize, p.column % LineMap.wordSize⟩

theorem Position.word_eq {p : Position} (hline : p.line < LineMap.wordSize)
    (hcolumn : p.column < LineMap.wordSize) : p.word = p := by
  rw [word, Nat.mod_eq_of_lt hline, Nat.mod_eq_of_lt hcolumn]

namespace LineMap

variable {o n : Nat} {bs bs' before after : List UInt8}

/-! ## Line starts -/

theorem startsAfter_append :
    startsAfter o (bs ++ bs') = startsAfter o bs ++ startsAfter (o + bs.length) bs' := by
  induction bs generalizing o with
  | nil => rfl
  | cons b bs ih =>
    have hsum : o + (bs.length + 1) = o + 1 + bs.length := by omega
    rw [List.cons_append, startsAfter, startsAfter, ih, List.length_cons, hsum]
    split <;> rfl

theorem startsAfter_eq_nil (h : lineBreak ∉ bs) : startsAfter o bs = [] := by
  induction bs generalizing o with
  | nil => rfl
  | cons b bs ih =>
    obtain ⟨hb, hbs⟩ := List.ne_and_not_mem_of_not_mem_cons h
    rw [startsAfter, if_neg (Ne.symm hb), ih hbs]

/-- A line starts behind the offset that is counted from, and within the text. -/
theorem mem_startsAfter {s : Nat} (h : s ∈ startsAfter o bs) : o < s ∧ s ≤ o + bs.length := by
  induction bs generalizing o with
  | nil => cases h
  | cons b bs ih =>
    have hrest : s ∈ startsAfter (o + 1) bs → o < s ∧ s ≤ o + (bs.length + 1) := by
      intro hs
      have hs := ih hs
      omega
    rw [startsAfter] at h
    rw [List.length_cons]
    split at h
    case isTrue =>
      obtain rfl | h := List.mem_cons.mp h
      · omega
      · exact hrest h
    case isFalse => exact hrest h

/-- Each line break starts one line. -/
theorem length_startsAfter : (startsAfter o bs).length = bs.count lineBreak := by
  induction bs generalizing o with
  | nil => rfl
  | cons b bs ih =>
    rw [startsAfter]
    split
    case isTrue h => rw [List.length_cons, ih, h, List.count_cons_self]
    case isFalse h => rw [ih, List.count_cons_of_ne h]

theorem pairwise_startsAfter : (startsAfter o bs).Pairwise (· < ·) := by
  induction bs generalizing o with
  | nil => exact .nil
  | cons b bs ih =>
    rw [startsAfter]
    split
    case isTrue => exact .cons (fun s hs => (mem_startsAfter hs).1) ih
    case isFalse => exact ih

/-- The line starts of a text. -/
def startsOf (bs : List UInt8) : List Nat := 0 :: startsAfter 0 bs

theorem startsOf_append : startsOf (bs ++ bs') = startsOf bs ++ startsAfter bs.length bs' := by
  rw [startsOf, startsAfter_append, Nat.zero_add, startsOf, List.cons_append]

/-- A line break starts a line behind it. -/
theorem startsOf_concat {b : UInt8} : startsOf (bs ++ [b]) =
    if b = lineBreak then startsOf bs ++ [bs.length + 1] else startsOf bs := by
  rw [startsOf_append, startsAfter, startsAfter]
  split
  · rfl
  · exact List.append_nil _

theorem startsOf_ne_nil : startsOf bs ≠ [] := List.cons_ne_nil _ _

theorem length_startsOf : (startsOf bs).length = bs.count lineBreak + 1 := by
  rw [startsOf, List.length_cons, length_startsAfter]

theorem le_of_mem_startsOf {s : Nat} (h : s ∈ startsOf bs) : s ≤ bs.length := by
  obtain rfl | h := List.mem_cons.mp h
  · exact Nat.zero_le _
  · simpa using (mem_startsAfter h).2

theorem pairwise_startsOf : (startsOf bs).Pairwise (· < ·) :=
  .cons (fun _ hs => (mem_startsAfter hs).1) pairwise_startsAfter

/-- The start of the line that a text ends in. -/
def lastStart (bs : List UInt8) : Nat := (startsOf bs).getLast startsOf_ne_nil

theorem lastStart_le : lastStart bs ≤ bs.length := le_of_mem_startsOf (List.getLast_mem _)

/-- The line starts of a text, the last of them apart. -/
theorem startsOf_eq : startsOf bs = (startsOf bs).dropLast ++ [lastStart bs] :=
  (List.dropLast_append_getLast startsOf_ne_nil).symm

theorem lastStart_concat {b : UInt8} :
    lastStart (bs ++ [b]) = if b = lineBreak then bs.length + 1 else lastStart bs := by
  simp only [lastStart, startsOf_concat]
  split
  · exact List.getLast_append_singleton _
  · rfl

/-- **The place behind a text** counts its line starts, and the bytes behind the last of them. -/
theorem passAll_first :
    Position.first.passAll bs = ⟨bs.count lineBreak + 1, bs.length - lastStart bs + 1⟩ := by
  induction bs using List.reverseRecOn with
  | nil => rfl
  | append_singleton bs b ih =>
    have hle : lastStart bs ≤ bs.length := lastStart_le
    have hpass : (Position.first.passAll bs).passAll [b] = (Position.first.passAll bs).pass b := rfl
    rw [Position.passAll_append, hpass, ih, Position.pass, List.count_append, List.length_append,
      List.length_singleton]
    split
    case isTrue h =>
      rw [lastStart_concat, if_pos h, h, Nat.sub_self]
      rfl
    case isFalse h =>
      have hcount : List.count lineBreak [b] = 0 :=
        List.count_eq_zero.mpr (by simpa using Ne.symm h)
      rw [lastStart_concat, if_neg h, hcount, Position.mk.injEq]
      exact ⟨rfl, by dsimp only; omega⟩

/-- Each line and each column takes a byte. -/
theorem word_passAll_first (h : bs.length + 1 < wordSize) :
    (Position.first.passAll bs).word = Position.first.passAll bs := by
  have hcount : bs.count lineBreak ≤ bs.length := List.count_le_length
  rw [passAll_first]
  exact Position.word_eq (by dsimp only; omega) (by dsimp only; omega)

/-! ## The search -/

/-- **The search finds the last number up to the one that is searched.** -/
theorem search_append {early late : List Nat} {last : Nat}
    (hpair : (early ++ [last]).Pairwise (· < ·)) (hlast : last ≤ n) (hlate : ∀ s ∈ late, n < s) :
    search n (early ++ last :: late) =
      if last = n then .ok early.length else .error (early.length + 1) := by
  have hearly : ∀ s ∈ early, decide (s < n) = true := fun s hs =>
    decide_eq_true (Nat.lt_of_lt_of_le
      ((List.pairwise_append.mp hpair).2.2 s hs last List.mem_cons_self) hlast)
  have hcut : (early ++ last :: late).takeWhile (· < n) =
      early ++ (last :: late).takeWhile (· < n) := List.takeWhile_append_of_pos hearly
  by_cases heq : last = n
  · have htake : (last :: late).takeWhile (· < n) = [] :=
      List.takeWhile_cons_of_neg (by simp [heq])
    rw [search, hcut, htake, List.append_nil]
    simp [heq]
  · have hlt : last < n := Nat.lt_of_le_of_ne hlast heq
    cases late with
    | nil => simp [search, hcut, hlt, heq]
    | cons s late =>
      have hs : n < s := hlate s List.mem_cons_self
      have htake : (last :: s :: late).takeWhile (· < n) = [last] := by
        simp [hlt, Nat.lt_asymm hs]
      simp [search, hcut, htake, heq, Nat.ne_of_gt hs]

/-! ## Places -/

variable {source : String}

theorem starts_ofSource :
    (ofSource source).starts = (startsOf (bytes source)).map (· % wordSize) := rfl

/-- The line starts of a text of fewer bytes than a word has values are words. -/
theorem starts_eq (hsize : source.utf8ByteSize < wordSize) :
    (ofSource source).starts = startsOf (bytes source) := by
  have hword : ∀ s ∈ startsOf (bytes source), s % wordSize = s := by
    intro s hs
    have hle : s ≤ (bytes source).length := le_of_mem_startsOf hs
    rw [length_bytes] at hle
    exact Nat.mod_eq_of_lt (by omega)
  rw [starts_ofSource, List.map_congr_left hword, List.map_id']

theorem length_dropLast_startsOf : (startsOf bs).dropLast.length = bs.count lineBreak := by
  rw [List.length_dropLast, length_startsOf, Nat.add_sub_cancel]

/-- The line of an offset is the one that the bytes before it end in. -/
theorem lineIndex_eq (h : bytes source = before ++ after) (hsize : source.utf8ByteSize < wordSize) :
    (ofSource source).lineIndex before.length = before.count lineBreak := by
  have hpair : ((startsOf before).dropLast ++ [lastStart before]).Pairwise (· < ·) := by
    rw [← startsOf_eq]
    exact pairwise_startsOf
  rw [lineIndex, starts_eq hsize, h, startsOf_append, startsOf_eq, List.append_assoc,
    List.singleton_append, search_append hpair lastStart_le fun s hs => (mem_startsAfter hs).1,
    length_dropLast_startsOf]
  by_cases heq : lastStart before = before.length
  · rw [if_pos heq]
  · rw [if_neg heq]
    rfl

theorem start_eq (h : bytes source = before ++ after) (hsize : source.utf8ByteSize < wordSize) :
    (ofSource source).starts[before.count lineBreak]? = some (lastStart before) := by
  rw [starts_eq hsize, h, startsOf_append, startsOf_eq, List.append_assoc,
    ← length_dropLast_startsOf]
  simp

theorem length_add_length (h : bytes source = before ++ after) :
    before.length + after.length = source.utf8ByteSize := by
  rw [← length_bytes, h, List.length_append]

/-- **The place of an offset**, in a text of fewer bytes than a word has values, is what is left of
the place behind the bytes before it. -/
theorem position_eq (h : bytes source = before ++ after) (hsize : source.utf8ByteSize < wordSize) :
    (ofSource source).position before.length = (Position.first.passAll before).word := by
  have hsum : before.length + after.length = source.utf8ByteSize := length_add_length h
  have hle : lastStart before ≤ before.length := lastStart_le
  -- The difference of two words does not wrap where the first is the larger one.
  have hcolumn : before.length + wordSize - lastStart before + 1 =
      before.length - lastStart before + 1 + wordSize := by
    omega
  rw [position, Nat.mod_eq_of_lt (show before.length < wordSize by omega), lineIndex_eq h hsize,
    List.getD_eq_getElem?_getD, start_eq h hsize, Option.getD_some, hcolumn, Nat.add_mod_right,
    passAll_first]
  rfl

theorem position_take (hsize : source.utf8ByteSize < wordSize) {k : Nat}
    (hk : k ≤ source.utf8ByteSize) :
    (ofSource source).position k = (Position.first.passAll ((bytes source).take k)).word := by
  have hposition := position_eq (List.take_append_drop k (bytes source)).symm hsize
  rwa [List.length_take_of_le (length_bytes ▸ hk)] at hposition

/-- Only at the end of the longest texts a place may wrap. -/
theorem position_of_lt (hsize : source.utf8ByteSize < wordSize) {k : Nat}
    (hk : k < source.utf8ByteSize) :
    (ofSource source).position k = Position.first.passAll ((bytes source).take k) := by
  rw [position_take hsize hk.le, word_passAll_first]
  rw [List.length_take_of_le (length_bytes ▸ hk.le)]
  omega

/-- **A later offset has a later place**, if that does not wrap. -/
theorem position_lt (hsize : source.utf8ByteSize < wordSize) {a b : Nat} (hab : a < b)
    (hb : b ≤ source.utf8ByteSize)
    (hplace : (ofSource source).position b = Position.first.passAll ((bytes source).take b)) :
    (ofSource source).position a < (ofSource source).position b := by
  have htake : (bytes source).take b = (bytes source).take a ++ ((bytes source).take b).drop a := by
    have happend := List.take_append_drop a ((bytes source).take b)
    rwa [List.take_take, Nat.min_eq_left hab.le, eq_comm] at happend
  rw [position_of_lt hsize (by omega), hplace, htake, Position.passAll_append]
  refine Position.lt_passAll fun hnil => ?_
  have hlength := congrArg List.length hnil
  rw [List.length_drop, List.length_take_of_le (length_bytes ▸ hb), List.length_nil] at hlength
  omega

/-! ## Places between characters -/

section Characters

variable {front behind : List Char}

/-- The bytes before an offset between characters are those of the characters before it. -/
theorem take_byteLength (h : source.toList = front ++ behind) :
    (bytes source).take (byteLength front) = encode front := by
  rw [bytes_eq, h, encode_append, ← length_encode, List.take_left]

/-- **The place behind the characters at the start of a text** is what is left of the place that
reading them reaches. -/
theorem position_byteLength (h : source.toList = front ++ behind)
    (hsize : source.utf8ByteSize < wordSize) :
    (ofSource source).position (byteLength front) = (placeAfter front).word := by
  have hle : byteLength front ≤ source.utf8ByteSize := utf8ByteSize_eq h ▸ Nat.le_add_right _ _
  rw [position_take hsize hle, take_byteLength h, Position.passAll_encode]
  rfl

/-- Before a character no place wraps. -/
theorem position_byteLength_of_ne_nil (h : source.toList = front ++ behind)
    (hsize : source.utf8ByteSize < wordSize) (hbehind : behind ≠ []) :
    (ofSource source).position (byteLength front) = placeAfter front := by
  have hpos : 0 < byteLength behind := byteLength_pos hbehind
  have hlt : byteLength front < source.utf8ByteSize := by
    rw [utf8ByteSize_eq h]
    exact Nat.lt_add_of_pos_right hpos
  rw [position_of_lt hsize hlt, take_byteLength h, Position.passAll_encode]
  rfl

end Characters

end LineMap

end Ascription
