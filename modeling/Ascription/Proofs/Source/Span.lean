import Ascription.Source.Span
import Mathlib.Order.Defs.LinearOrder

/-!
# Proofs/Source/Span — places in reading order

    first ──c₁──▸ · ──c₂──▸ · ──…──▸ · ──cₙ──▸ placeAfter [c₁, …, cₙ]

Places are ordered by line, then by column.  Reading a character moves the place on, and there is no
bound on the lines and columns that are counted so.  Two spans of which the first starts and ends no
later than the second merge into the stretch from the one start to the other end.
-/

namespace Ascription

namespace Position

variable {p q : Position}

/-! ## The order -/

/-- Reading order. -/
instance : LE Position := ⟨fun p q => p.le q = true⟩

instance : LT Position := ⟨fun p q => q.le p = false⟩

theorem le_def : p ≤ q ↔ p.le q = true := Iff.rfl

theorem lt_def : p < q ↔ q.le p = false := Iff.rfl

theorem le_iff : p ≤ q ↔ p.line < q.line ∨ p.line = q.line ∧ p.column ≤ q.column := by
  simp [le_def, le]

instance : LinearOrder Position where
  le_refl p := le_iff.mpr (.inr ⟨rfl, Nat.le_refl _⟩)
  le_trans p q r h h' := by
    rw [le_iff] at *
    omega
  le_antisymm p q h h' := by
    cases p
    cases q
    simp only [le_iff, mk.injEq] at *
    omega
  le_total p q := by
    rw [le_iff, le_iff]
    omega
  lt_iff_le_not_ge p q := by
    have hnot : q.le p = false ↔ ¬ q ≤ p := by rw [le_def, Bool.not_eq_true]
    rw [lt_def, hnot, le_iff, le_iff]
    omega
  toDecidableLE p q := inferInstanceAs (Decidable (p.le q = true))

theorem lt_iff : p < q ↔ p.line < q.line ∨ p.line = q.line ∧ p.column < q.column := by
  rw [← not_le, le_iff]
  omega

/-! ## Reading -/

/-- The place behind the character `c`. -/
def advance (p : Position) (c : Char) : Position :=
  if c = '\n' then ⟨p.line + 1, 1⟩ else ⟨p.line, p.column + c.utf8Size⟩

/-- The place behind a run of characters. -/
def advanceAll (p : Position) (cs : List Char) : Position := cs.foldl advance p

/-- A character moves the place on. -/
theorem lt_advance {c : Char} : p < p.advance c := by
  have hc : 0 < c.utf8Size := c.utf8Size_pos
  rw [lt_iff, advance]
  split
  · exact .inl (Nat.lt_succ_self _)
  · exact .inr ⟨rfl, Nat.lt_add_of_pos_right hc⟩

theorem le_advanceAll {cs : List Char} : p ≤ p.advanceAll cs := by
  induction cs generalizing p with
  | nil => exact le_refl p
  | cons c cs ih => exact le_trans (le_of_lt lt_advance) ih

theorem lt_advanceAll {cs : List Char} (h : cs ≠ []) : p < p.advanceAll cs := by
  cases cs with
  | nil => exact absurd rfl h
  | cons c cs => exact lt_of_lt_of_le lt_advance le_advanceAll

end Position

/-- **The place behind the characters at the start of a text**, its line and its column
counted without bound. -/
def placeAfter (before : List Char) : Position := Position.first.advanceAll before

/-- **Spans in reading order merge end to end.** -/
theorem Span.merge_eq {a b : Span} (hstart : a.start ≤ b.start) (hstop : a.stop ≤ b.stop) :
    merge a b = ⟨a.start, b.stop⟩ := by
  rw [merge, Position.earlier, Position.later, if_pos (Position.le_def.mp hstart),
    if_pos (Position.le_def.mp hstop)]

end Ascription
