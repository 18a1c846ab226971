import Ascription.Builtin
import Ascription.Expr

/-!
# Value — runtime values

Values are data, records of a host, and callables.  A callable is either written in the language (a
**closure**: a lambda with the scope it was made in), built in, or a function of the host, known by
its name.  Each callable that comes into being has an **identity**, a number, and two callables are
equal when their identities are.

A scope is a list of levels, the innermost first; each binds variables and functions.
-/

namespace Ascription

/-- The key of a map entry. -/
inductive MapKey
  | int (n : Int64)
  | string (s : String)
  deriving DecidableEq

mutual

/-- A value.  A record with a kind belongs to the host; one without is anonymous. -/
inductive Value
  | string (s : String)
  | int (n : Int64)
  | float (x : Binary64)
  | bool (b : Bool)
  | none
  | list (items : List Value)
  | map (entries : List (MapKey × Value))
  | record (kind : Option String) (fields : List (String × Value))
  | callable (identity : Nat) (code : Code)

/-- What a callable does. -/
inductive Code
  | builtin (b : Builtin)
  | host (name : String)
  | closure (scope : List Level) (params : List String) (body : Expr)

/-- A function bound in a scope. -/
inductive FunctionEntry
  | mk (signature : Option Ty) (code : Code)

/-- One level of a scope. -/
inductive Level
  | mk (values : List (String × Value)) (functions : List (String × FunctionEntry))

end

instance : Inhabited Value := ⟨.none⟩

/-- The levels of a scope, the innermost first. -/
abbrev Scope := List Level

namespace FunctionEntry

def signature : FunctionEntry → Option Ty
  | mk s _ => s

def code : FunctionEntry → Code
  | mk _ c => c

end FunctionEntry

namespace Level

def values : Level → List (String × Value)
  | mk vs _ => vs

def functions : Level → List (String × FunctionEntry)
  | mk _ fs => fs

end Level

namespace MapKey

/-- The type of a key. -/
def type : MapKey → Ty
  | int _ => .int
  | string _ => .string

/-- A key as a value. -/
def toValue : MapKey → Value
  | int n => .int n
  | string s => .string s

/-- A key as text. -/
def text : MapKey → String
  | int n => toString n.toInt
  | string s => "\"" ++ s ++ "\""

end MapKey

namespace Value

/-- An anonymous record written field by field. -/
def anonymous (fields : List (String × Value)) : Value := record Option.none (Entries.ofList fields)

/-- A record of the host written field by field. -/
def object (kind : String) (fields : List (String × Value)) : Value :=
  record (Option.some kind) (Entries.ofList fields)

/-- The name of a value's type, as messages show it. -/
def typeName : Value → String
  | string _ => "string"
  | int _ => "int"
  | float _ => "float"
  | bool _ => "bool"
  | none => "None"
  | list _ => "list"
  | map _ => "map"
  | record kind _ => kind.getD "struct"
  | callable _ _ => "function"

/-- The key a value can be of a map. -/
def toKey? : Value → Option MapKey
  | int n => Option.some (.int n)
  | string s => Option.some (.string s)
  | _ => Option.none

/-- The value of a literal. -/
def ofLiteral : Literal → Value
  | .string s => string s
  | .int n => int n
  | .float x => float x
  | .bool b => bool b
  | .none => none

/-! ## Text -/

mutual

/-- **A value as text.** -/
def text : Value → String
  | string s => "\"" ++ s ++ "\""
  | int n => toString n.toInt
  | float x => Notation.value.text x
  | bool b => if b then "true" else "false"
  | none => "None"
  | list items => "[" ++ ", ".intercalate (textItems items) ++ "]"
  | map entries => "\x7b" ++ ", ".intercalate (textEntries entries) ++ "\x7d"
  | record kind fields =>
    (match kind with
      | Option.some k => k ++ " "
      | Option.none => "") ++ "\x7b" ++ ", ".intercalate (textFields fields) ++ "\x7d"
  | callable _ _ => "<function>"

def textItems : List Value → List String
  | [] => []
  | v :: vs => text v :: textItems vs

def textEntries : List (MapKey × Value) → List String
  | [] => []
  | (k, v) :: rest => (k.text ++ ": " ++ text v) :: textEntries rest

def textFields : List (String × Value) → List String
  | [] => []
  | (name, v) :: rest => (name ++ ": " ++ text v) :: textFields rest

end

/-! ## Equality -/

mutual

/-- **Equality of values.** Maps and records compare without regard to the order of their entries,
floats as numbers, callables by identity. -/
def equal : Value → Value → Bool
  | string s, string t => s == t
  | int m, int n => m == n
  | float x, float y => x.equal y
  | bool a, bool b => a == b
  | none, none => true
  | list xs, list ys => equalItems xs ys
  | map es, map fs => es.length == fs.length && entriesIn es fs
  | record k es, record l fs => k == l && es.length == fs.length && fieldsIn es fs
  | callable i _, callable j _ => i == j
  | _, _ => false

/-- Equality of two lists of values, place by place. -/
def equalItems : List Value → List Value → Bool
  | [], [] => true
  | x :: xs, y :: ys => equal x y && equalItems xs ys
  | _, _ => false

/-- Is each entry of the first map an entry of the second? -/
def entriesIn : List (MapKey × Value) → List (MapKey × Value) → Bool
  | [], _ => true
  | (k, v) :: rest, fs =>
    (match fs.lookup k with
      | Option.some w => equal v w
      | Option.none => false) && entriesIn rest fs

/-- Is each field of the first record a field of the second? -/
def fieldsIn : List (String × Value) → List (String × Value) → Bool
  | [], _ => true
  | (name, v) :: rest, fs =>
    (match fs.lookup name with
      | Option.some w => equal v w
      | Option.none => false) && fieldsIn rest fs

end

end Value

end Ascription
