import Ascription.Ty

/-!
# Builtin — the names the language brings along

Eleven type names and nine functions, with the signatures of the functions.
-/

namespace Ascription

/-- The built-in functions. -/
inductive Builtin
  | contains
  | count
  | filter
  | isSome
  | map
  | some
  | substr
  | take
  | unique
  deriving DecidableEq

namespace Builtin

/-- The functions in the order of their names. -/
def all : List Builtin :=
  [contains, count, filter, isSome, map, some, substr, take, unique]

def name : Builtin → String
  | contains => "contains"
  | count => "count"
  | filter => "filter"
  | isSome => "isSome"
  | map => "map"
  | some => "some"
  | substr => "substr"
  | take => "take"
  | unique => "unique"

/-- The type of a predicate on anything. -/
def predicate : Ty := .func .bool [.any]

/-- **The signature of a function**; the first parameter is the target of the call. -/
def signature : Builtin → Ty
  | contains => .func .bool [.any, .any]
  | count => .func .int [.any]
  | filter => .func .any [.any, predicate]
  | isSome => .func .bool [.option .any]
  | map => .func .any [.any, .func .any [.any]]
  | some => .func .bool [.list .any, predicate]
  | substr => .func .string [.string, .int, .int]
  | take => .func (.list .any) [.list .any, .int]
  | unique => .func (.list .any) [.list .any]

/-- The names of the functions. -/
def names : List String := all.map name

/-- Is the name that of a built-in function? -/
def isName (name : String) : Bool := names.contains name

end Builtin

/-- The names of the built-in types. -/
def builtinTypeNames : List String :=
  ["string", "int", "float", "bool", "any", "never", "None", "Option", "Some", "list", "map"]

/-- May no alias have the name? Besides the built-in types this is `fn`, which starts a function
type. -/
def isReservedTypeName (name : String) : Bool := builtinTypeNames.contains name || name == "fn"

end Ascription
