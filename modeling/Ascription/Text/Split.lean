/-!
# Text/Split — cutting short texts

Splitting at the first occurrence of a character, and trimming white space at both ends.
-/

namespace Ascription

namespace Split

/-- The parts of a text before and behind the first `c`, if it has one. -/
def atFirst (c : Char) : List Char → Option (List Char × List Char)
  | [] => none
  | d :: ds => if d = c then some ([], ds) else (atFirst c ds).map fun (l, r) => (d :: l, r)

/-- The parts of a text before and behind the first `c`, if it has one. -/
def once (c : Char) (s : String) : Option (String × String) :=
  (atFirst c s.toList).map fun (l, r) => (String.ofList l, String.ofList r)

/-- Is the character white space, after the Unicode property of that name? -/
def isWhiteSpace (c : Char) : Bool :=
  let n := c.toNat
  (0x09 ≤ n && n ≤ 0x0d) || n == 0x20 || n == 0x85 || n == 0xa0 || n == 0x1680 ||
    (0x2000 ≤ n && n ≤ 0x200a) || n == 0x2028 || n == 0x2029 || n == 0x202f || n == 0x205f ||
    n == 0x3000

/-- A text without white space at its ends. -/
def trim (s : String) : String :=
  String.ofList ((s.toList.dropWhile isWhiteSpace).reverse.dropWhile isWhiteSpace).reverse

end Split

end Ascription
