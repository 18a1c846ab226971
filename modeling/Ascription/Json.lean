import Ascription.Entries
import Ascription.Number.Notation

/-!
# Json — JSON documents as values

A number is a natural number of 64 bits, a negative integer of 64 bits or a finite double; each
number has one form.  The members of an object are listed in an order; objects that stand for
unordered data are built by `Json.sorted`, which lists every name once and in ascending order.
-/

namespace Ascription

/-- A JSON number. -/
inductive JsonNumber
  | natural (n : UInt64)
  | negative (n : Int64) (is_negative : n < 0)
  | float (x : Binary64) (is_finite : x.isFinite = true)
  deriving DecidableEq

namespace JsonNumber

/-- A 64-bit integer as a JSON number. -/
def ofInt64 (n : Int64) : JsonNumber :=
  if h : n < 0 then negative n h else natural n.toInt.toNat.toUInt64

/-- A double as a JSON number, if it is finite. -/
def ofBinary64? (x : Binary64) : Option JsonNumber :=
  if h : x.isFinite = true then some (float x h) else none

/-- The number as a 64-bit integer, if it was written as one and fits. -/
def toInt64? : JsonNumber → Option Int64
  | natural n => if n.toNat < 9223372036854775808 then some (Int64.ofNat n.toNat) else none
  | negative n _ => some n
  | float _ _ => none

/-- The number as the nearest double. -/
def toBinary64 : JsonNumber → Binary64
  | natural n => Binary64.ofNat n.toNat
  | negative n _ => Binary64.ofInt n.toInt
  | float x _ => x

/-- A number as JSON text. -/
def text : JsonNumber → String
  | natural n => toString n.toNat
  | negative n _ => toString n.toInt
  | float x _ => Notation.json.text x

end JsonNumber

/-- A JSON document. -/
inductive Json
  | null
  | bool (b : Bool)
  | number (n : JsonNumber)
  | string (s : String)
  | array (items : List Json)
  | object (members : List (String × Json))
  deriving Inhabited

namespace Json

/-- Writing a member into a list sorted by name; a known name takes the new value. -/
def insertSorted (name : String) (value : Json) : List (String × Json) → List (String × Json)
  | [] => [(name, value)]
  | (name', value') :: rest =>
    if name = name' then (name, value) :: rest
    else if name < name' then (name, value) :: (name', value') :: rest
    else (name', value') :: insertSorted name value rest

/-- Members sorted by name; of several members of one name the last remains. -/
def sortMembers (members : List (String × Json)) : List (String × Json) :=
  members.foldl (fun acc m => insertSorted m.1 m.2 acc) []

/-- **An object with sorted members.** -/
def sorted (members : List (String × Json)) : Json := object (sortMembers members)

/-- A natural number. -/
def ofNat (n : Nat) : Json := number (.natural n.toUInt64)

end Json

end Ascription
