/-!
# Source/Span — places in a source text

Lines and columns count from one, columns in bytes of the UTF-8 text.  A span runs from its first
place up to, and not including, its last.  Line zero belongs to no text: a span that starts there is
**synthetic**, carried by trees that no text was read for.
-/

namespace Ascription

/-- A line and a byte column, both counted from one. -/
structure Position where
  line : Nat
  column : Nat
  deriving DecidableEq, Inhabited

namespace Position

/-- Where every text begins. -/
def first : Position := ⟨1, 1⟩

/-- Reading order: by line, then by column. -/
def le (p q : Position) : Bool :=
  p.line < q.line || (p.line == q.line && p.column ≤ q.column)

/-- The earlier of two places. -/
def earlier (p q : Position) : Position := if p.le q then p else q

/-- The later of two places. -/
def later (p q : Position) : Position := if p.le q then q else p

end Position

/-- A stretch of source text. -/
structure Span where
  start : Position
  stop : Position
  deriving DecidableEq

namespace Span

/-- The span of what no text was read for. -/
def synthetic : Span := ⟨⟨0, 0⟩, ⟨0, 0⟩⟩

instance : Inhabited Span := ⟨synthetic⟩

/-- The empty span at a place. -/
def point (p : Position) : Span := ⟨p, p⟩

/-- The smallest span around two. -/
def merge (a b : Span) : Span := ⟨a.start.earlier b.start, a.stop.later b.stop⟩

/-- Does the span point at no text? -/
def isSynthetic (s : Span) : Bool := s.start.line == 0

/-- A span in text, `line:column-line:column`. -/
def text (s : Span) : String :=
  toString s.start.line ++ ":" ++ toString s.start.column ++ "-" ++
    toString s.stop.line ++ ":" ++ toString s.stop.column

end Span

end Ascription
