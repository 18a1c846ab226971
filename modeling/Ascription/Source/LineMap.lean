import Ascription.Source.Span

/-!
# Source/LineMap — from byte offsets to lines and columns

    source   a b ⏎ c d ⏎        starts   0  3  6        offset 4  ──position──▸  line 2, column 2

A line map lists the byte offsets at which the lines of a text start.  Offsets, lines and columns
are 32-bit words: of a larger number only its remainder counts.  An offset belongs to the last line
that starts at or before it, also when it lies inside a line break or past the end.

The starts ascend in a text of fewer than `2 ^ 32` bytes.  Those of a longer one need not, and then
the search for a line need not find the last start up to the offset.
-/

namespace Ascription

/-- The byte offsets at which the lines of a text start, in their order in the text. -/
structure LineMap where
  starts : List Nat
  source : String

namespace LineMap

/-- The byte of a line break. -/
def lineBreak : UInt8 := 10

/-- How many values a 32-bit word has. -/
def wordSize : Nat := 4294967296

/-- The offsets behind the line breaks among bytes of which the first stands at `offset`. -/
def startsAfter (offset : Nat) : List UInt8 → List Nat
  | [] => []
  | b :: bs =>
    if b = lineBreak then (offset + 1) :: startsAfter (offset + 1) bs
    else startsAfter (offset + 1) bs

/-- The bytes of a text. -/
def bytes (source : String) : List UInt8 := source.toByteArray.data.toList

/-- **The line map of a text**: where its lines start, as words. -/
def ofSource (source : String) : LineMap :=
  ⟨(0 :: startsAfter 0 (bytes source)).map (· % wordSize), source⟩

/-- How many lines the text has. -/
def lineCount (m : LineMap) : Nat := m.starts.length % wordSize

/-- Searching numbers in ascending order: the index at which `n` stands, or else the one at which
it would have to be inserted. -/
def search (n : Nat) (numbers : List Nat) : Except Nat Nat :=
  let i := (numbers.takeWhile (· < n)).length
  if numbers[i]? = some n then .ok i else .error i

/-- The index of the line of an offset. -/
def lineIndex (m : LineMap) (offset : Nat) : Nat :=
  match search offset m.starts with
  | .ok i => i
  | .error i => i - 1

/-- **The place of a byte offset.**  The column is a difference of words, which wraps as they do. -/
def position (m : LineMap) (offset : Nat) : Position :=
  let word := offset % wordSize
  let i := m.lineIndex word
  ⟨(i + 1) % wordSize, (word + wordSize - m.starts.getD i 0 + 1) % wordSize⟩

/-- The span between two byte offsets. -/
def span (m : LineMap) (start stop : Nat) : Span := ⟨m.position start, m.position stop⟩

/-- The part of a text from one byte offset up to another, where both stand between characters. -/
def slice? (source : String) (start stop : Nat) : Option String :=
  if h : start ≤ stop ∧ String.Pos.Raw.IsValid source ⟨start⟩ ∧
      String.Pos.Raw.IsValid source ⟨stop⟩
  then some (source.extract (source.pos ⟨start⟩ h.2.1) (source.pos ⟨stop⟩ h.2.2))
  else none

/-- **The text of a line**, without its line break. -/
def lineText (m : LineMap) (line : Nat) : Option String := do
  let i ← if line = 0 then none else some (line - 1)
  let start ← m.starts[i]?
  let stop := (m.starts[i + 1]?.map (· - 1)).getD m.source.utf8ByteSize
  slice? m.source start stop

end LineMap

/-- How many bytes the characters of a text take. -/
def byteLength : List Char → Nat
  | [] => 0
  | c :: cs => c.utf8Size + byteLength cs

end Ascription
