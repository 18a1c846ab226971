import Ascription.Json
import Ascription.Value

/-!
# Value/Json — values and JSON documents

`ofJson` reads a document as a value, guided by a type where there is one: numbers become floats
where a float is wanted, objects become maps, host records or anonymous records.  `toJson` writes
every value; maps and records become objects with sorted members.
-/

namespace Ascription

namespace Ty

/-- The type behind aliases, options and `Some`, as far as they nest. -/
def unwrapped : Ty → Ty
  | aliased _ t => unwrapped t
  | option t | some t => unwrapped t
  | t => t

end Ty

/-- Why a document is no value of a type. -/
inductive JsonValueError
  | notAnInt (n : JsonNumber)
  | keyNotAnInt (key : String)

def JsonValueError.message : JsonValueError → String
  | notAnInt n => n.text ++ " does not fit in an int"
  | keyNotAnInt key => "map key '" ++ key ++ "' is not an int"

/-- A key as the name of a member. -/
def MapKey.memberName : MapKey → String
  | .int n => toString n.toInt
  | .string s => s

namespace Value

/-- A number: a float where one is wanted, else an integer if it was written as one. -/
def ofJsonNumber (wanted : Option Ty) (n : JsonNumber) : Except JsonValueError Value :=
  match wanted, n with
  | Option.some .float, n => .ok (float n.toBinary64)
  | _, .float x _ => .ok (float x)
  | _, n =>
    match n.toInt64? with
    | Option.some i => .ok (int i)
    | Option.none => .error (.notAnInt n)

/-- The key of an entry: an integer where one is wanted, else the name itself. -/
def keyOfJson (wanted : Ty) (name : String) : Except JsonValueError MapKey :=
  match wanted.canonical with
  | .int =>
    match Numeral.readInt64 name.toList with
    | Option.some n => .ok (.int n)
    | Option.none => .error (.keyNotAnInt name)
  | _ => .ok (.string name)

/-- The type of the items wanted of a list. -/
def wantedItem : Option Ty → Option Ty
  | Option.some (.list t) => Option.some t
  | _ => Option.none

/-- The fields wanted of a record. -/
def wantedFields : Option Ty → List (String × Ty)
  | Option.some (.struct fields) => fields
  | _ => []

mutual

/-- **A document as a value**, guided by the type that is wanted. -/
def ofJson (wanted : Option Ty) : Json → Except JsonValueError Value
  | .null => .ok none
  | .bool b => .ok (bool b)
  | .number n => ofJsonNumber (wanted.map Ty.unwrapped) n
  | .string s => .ok (string s)
  | .array items => do
    .ok (list (← ofJsonItems (wantedItem (wanted.map Ty.unwrapped)) items))
  | .object members =>
    match wanted.map Ty.unwrapped with
    | Option.some (.map k v) => do
      .ok (map (Entries.ofList (← ofJsonEntries k v members)))
    | Option.some (.object kind) => do
      .ok (object kind (← ofJsonMembers [] members))
    | t => do
      .ok (anonymous (← ofJsonMembers (wantedFields t) members))

/-- The items of a list. -/
def ofJsonItems (wanted : Option Ty) : List Json → Except JsonValueError (List Value)
  | [] => .ok []
  | j :: js => do
    let v ← ofJson wanted j
    let vs ← ofJsonItems wanted js
    .ok (v :: vs)

/-- The entries of a map, of each the key first. -/
def ofJsonEntries (k v : Ty) :
    List (String × Json) → Except JsonValueError (List (MapKey × Value))
  | [] => .ok []
  | (name, j) :: rest => do
    let key ← keyOfJson k name
    let value ← ofJson (Option.some v) j
    let entries ← ofJsonEntries k v rest
    .ok ((key, value) :: entries)

/-- The fields of a record; a field that no type is known for is read without one. -/
def ofJsonMembers (wanted : List (String × Ty)) :
    List (String × Json) → Except JsonValueError (List (String × Value))
  | [] => .ok []
  | (name, j) :: rest => do
    let value ← ofJson (wanted.lookup name) j
    let fields ← ofJsonMembers wanted rest
    .ok ((name, value) :: fields)

end

mutual

/-- **A value as a document.** Floats that JSON cannot write become `null`. -/
def toJson : Value → Json
  | string s => .string s
  | int n => .number (.ofInt64 n)
  | float x =>
    match JsonNumber.ofBinary64? x with
    | Option.some n => .number n
    | Option.none => .null
  | bool b => .bool b
  | none => .null
  | list items => .array (toJsonItems items)
  | map entries => .sorted (toJsonEntries entries)
  | record _ fields => .sorted (toJsonFields fields)
  | callable _ _ => .string "<function>"

def toJsonItems : List Value → List Json
  | [] => []
  | v :: vs => toJson v :: toJsonItems vs

def toJsonEntries : List (MapKey × Value) → List (String × Json)
  | [] => []
  | (k, v) :: rest => (k.memberName, toJson v) :: toJsonEntries rest

def toJsonFields : List (String × Value) → List (String × Json)
  | [] => []
  | (name, v) :: rest => (name, toJson v) :: toJsonFields rest

end

end Value

end Ascription
