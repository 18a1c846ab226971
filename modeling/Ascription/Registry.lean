import Ascription.Builtin
import Ascription.TypeError
import Ascription.TypeExpr

/-!
# Registry — the named types and functions of a host

A registry holds type aliases and function signatures, each in the order of definition.  Built-in
names cannot be redefined, and no name is defined twice.  `resolve` turns a written type into a
type: every name is a built-in type or an alias.
-/

namespace Ascription

/-- The aliases and function signatures that are known. -/
structure Registry where
  aliases : List (String × Ty)
  functions : List (String × Ty)

namespace Registry

/-- The registry that knows the built-in functions only. -/
def initial : Registry := ⟨[], Builtin.all.map fun b => (b.name, b.signature)⟩

instance : Inhabited Registry := ⟨initial⟩

/-- **Defining an alias.** -/
def defineAlias (r : Registry) (name : String) (target : Ty) : Except TypeError Registry :=
  if isReservedTypeName name then .error (.reservedName .typeName name)
  else if Entries.contains r.aliases name then .error (.alreadyDefined .typeAlias name)
  else .ok { r with aliases := Entries.insert name target r.aliases }

/-- **Declaring a function.** -/
def declareFunction (r : Registry) (name : String) (signature : Ty) : Except TypeError Registry :=
  if Builtin.isName name then .error (.reservedName .function name)
  else if Entries.contains r.functions name then .error (.alreadyDefined .function name)
  else .ok { r with functions := Entries.insert name signature r.functions }

/-- The type an alias name denotes: the alias together with its target. -/
def alias? (r : Registry) (name : String) : Option Ty :=
  (r.aliases.lookup name).map (Ty.aliased name)

/-- The signature of a function. -/
def function? (r : Registry) (name : String) : Option Ty := r.functions.lookup name

/-- The built-in types without arguments. -/
def primitive? : String → Option Ty
  | "string" => some .string
  | "int" => some .int
  | "float" => some .float
  | "bool" => some .bool
  | "any" => some .any
  | "never" => some .never
  | "None" => some .none
  | _ => none

/-- The built-in types with one argument. -/
def wrapper? : String → Option (Ty → Ty)
  | "list" => some .list
  | "Option" => some .option
  | "Some" => some .some
  | _ => none

mutual

/-- **The type that a written type denotes.** -/
def resolve (r : Registry) : TypeExpr → Except TypeError Ty
  | .named span name args =>
    match primitive? name with
    | some t => if args.isEmpty then .ok t else .error (.typeTakesNoArgs name span)
    | none =>
      match wrapper? name with
      | some wrap =>
        match args with
        | [arg] => (resolve r arg).map wrap
        | args => .error (.wrongArity name 1 args.length span)
      | none =>
        if name = "map" then
          match args with
          | [k, v] => do
            let key ← resolve r k
            let value ← resolve r v
            if key.isKey then .ok (.map key value) else .error (.invalidKeyType key k.span)
          | args => .error (.wrongArity name 2 args.length span)
        else
          match r.alias? name with
          | none => .error (.unknownType name span)
          | some t => if args.isEmpty then .ok t else .error (.typeTakesNoArgs name span)
  | .func _ params result => do
    let params ← resolveAll r params
    let result ← resolve r result
    .ok (.func result params)
  | .struct _ fields => do
    let fields ← resolveFields r [] fields
    .ok (.struct fields)

/-- The types of a list of written types. -/
def resolveAll (r : Registry) : List TypeExpr → Except TypeError (List Ty)
  | [] => .ok []
  | t :: ts => do
    let type ← resolve r t
    let types ← resolveAll r ts
    .ok (type :: types)

/-- The fields of a struct type behind those already read, no name twice. -/
def resolveFields (r : Registry) (done : List (String × Ty)) :
    List (String × TypeExpr × Span) → Except TypeError (List (String × Ty))
  | [] => .ok done
  | (name, t, span) :: rest =>
    if Entries.contains done name then .error (.duplicateField name span)
    else do
      let type ← resolve r t
      resolveFields r (done ++ [(name, type)]) rest

end

end Registry

end Ascription
