/-!
# Diagnostic/Suggestion — the name that was meant

The distance of two texts is the least number of characters to insert, delete or replace; it is
computed row by row.  A suggestion is the first of the nearest candidates within a limit that grows
with the length of the name.
-/

namespace Ascription

namespace EditDistance

/-- The cost of putting `b` where `a` stands. -/
def cost (a b : Char) : Nat := if a = b then 0 else 1

/-- The rest of a row behind its entry `left`: `above` is the row above, from the place of
`left`. -/
def rowFrom (a : Char) (left : Nat) : List Nat → List Char → List Nat
  | diagonal :: up :: above, b :: bs =>
    let here := min (min (up + 1) (left + 1)) (diagonal + cost a b)
    here :: rowFrom a here (up :: above) bs
  | _, _ => []

/-- The row for one more character of the first text: its entries are the distances to the prefixes
of the second. -/
def nextRow (bs : List Char) (above : List Nat) (a : Char) : List Nat :=
  let first := above.headD 0 + 1
  first :: rowFrom a first above bs

/-- The last row: the distances of the whole first text to the prefixes of the second. -/
def lastRow (as bs : List Char) : List Nat :=
  as.foldl (nextRow bs) (List.range (bs.length + 1))

end EditDistance

/-- **The edit distance** of two texts, in characters. -/
def editDistance (a b : String) : Nat :=
  (EditDistance.lastRow a.toList b.toList).getLastD 0

namespace Suggestion

/-- The largest distance a suggestion may have, by the bytes of the name. -/
def limit (name : String) : Nat :=
  if name.utf8ByteSize ≤ 2 then 1 else if name.utf8ByteSize ≤ 5 then 2 else 3

/-- The difference of two lengths. -/
def lengthGap (a b : String) : Nat :=
  (a.utf8ByteSize - b.utf8ByteSize) + (b.utf8ByteSize - a.utf8ByteSize)

/-- The best candidate so far, and its distance, after one more candidate.  Texts whose lengths
differ by more than the limit are not compared. -/
def better (name : String) (best : Option (String × Nat)) (candidate : String) :
    Option (String × Nat) :=
  if candidate = name ∨ limit name < lengthGap name candidate then best
  else
    let d := editDistance name candidate
    if limit name < d then best
    else match best with
      | none => some (candidate, d)
      | some (other, e) => if d < e then some (candidate, d) else some (other, e)

/-- **The candidate that was meant**, if there is one. -/
def closest? (name : String) (candidates : List String) : Option String :=
  (candidates.foldl (better name) none).map Prod.fst

/-- The advice to use the candidate that was meant. -/
def didYouMean (name : String) (candidates : List String) : Option String :=
  (closest? name candidates).map fun c => "did you mean `" ++ c ++ "`?"

end Suggestion

end Ascription
