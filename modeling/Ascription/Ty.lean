import Ascription.Entries

/-!
# Ty — the types of the expression language

Types are compared **by name**: two types are equal when their outermost names agree, and only
lists and functions look further inside.  An alias stands for its target everywhere; `canonical`
looks through aliases at the top.

Subtyping `isSubtype` has `never` below and `any` above every type, lets options absorb their
contents, lists vary with their elements, and functions vary with what they return and against what
they take.
-/

namespace Ascription

/-- A type.  A host **object** is known by its name alone, a **struct** by its fields. -/
inductive Ty
  | string
  | int
  | float
  | bool
  | any
  | never
  | none
  | option (inner : Ty)
  | some (inner : Ty)
  | list (element : Ty)
  | map (key value : Ty)
  | func (result : Ty) (params : List Ty)
  | struct (fields : List (String × Ty))
  | object (name : String)
  | aliased (name : String) (target : Ty)
  deriving Inhabited

namespace Ty

/-- A struct type written field by field; a repeated field takes the later type. -/
def record (fields : List (String × Ty)) : Ty := struct (Entries.ofList fields)

/-- The outermost name of a type. -/
def name : Ty → String
  | string => "string"
  | int => "int"
  | float => "float"
  | bool => "bool"
  | any => "any"
  | never => "never"
  | none => "None"
  | option _ => "Option"
  | some _ => "Some"
  | list _ => "list"
  | map _ _ => "map"
  | func _ _ => "Func"
  | struct _ => "struct"
  | object name => name
  | aliased name _ => name

/-- The arguments of a type; those of a function are what it returns, then what it takes. -/
def args : Ty → List Ty
  | option t | some t | list t => [t]
  | map k v => [k, v]
  | func r ps => r :: ps
  | _ => []

/-- What an alias stands for. -/
def aliasTarget : Ty → Option Ty
  | aliased _ t => Option.some t
  | _ => Option.none

/-- **The type behind the aliases** at the top. -/
def canonical : Ty → Ty
  | aliased _ t => canonical t
  | t => t

/-- The fields of a struct type, also behind aliases. -/
def fields? (t : Ty) : Option (List (String × Ty)) :=
  match t.canonical with
  | struct fields => Option.some fields
  | _ => Option.none

/-- Is the type, behind its aliases, a number type? -/
def isNumeric (t : Ty) : Bool :=
  match t.canonical with
  | int | float => true
  | _ => false

/-- Is the type, behind its aliases, `bool`? -/
def isBool (t : Ty) : Bool :=
  match t.canonical with
  | bool => true
  | _ => false

/-- Is the type, behind its aliases, a map type? -/
def isMap (t : Ty) : Bool :=
  match t.canonical with
  | map _ _ => true
  | _ => false

/-- May the type be the key type of a map? -/
def isKey (t : Ty) : Bool :=
  match t.canonical with
  | int | string => true
  | _ => false

/-! ## Equality -/

mutual

/-- **Equality of types**: the names behind the aliases agree; the arguments of lists and functions
agree as well. -/
def equal : Ty → Ty → Bool
  | aliased _ t, b => equal t b
  | list x, b =>
    match b.canonical with
    | list y => equal x y
    | _ => false
  | func r ps, b =>
    match b.canonical with
    | func r' ps' => equal r r' && equalAll ps ps'
    | _ => false
  | a, b => a.name == b.canonical.name

/-- Equality of two lists of types, place by place. -/
def equalAll : List Ty → List Ty → Bool
  | [], [] => true
  | p :: ps, q :: qs => equal p q && equalAll ps qs
  | _, _ => false

end

/-! ## Subtyping -/

mutual

/-- **Subtyping.** -/
def isSubtype : Ty → Ty → Bool
  | aliased _ a, b => isSubtype a b
  | a, aliased _ b => isSubtype a b
  | none, option _ => true
  | option a, option b => isSubtype a b
  | some a, option b => isSubtype a b
  | a, option b => isSubtype a b
  | never, _ => true
  | _, any => true
  | any, _ => false
  | some a, some b => isSubtype a b
  | list a, list b => isSubtype a b
  | func r ps, func r' ps' => isSubtype r r' && takesAll ps ps'
  | a, b => a.name == b.name
termination_by a b => sizeOf a + sizeOf b

/-- Is each of the first parameter types, place by place, a supertype of the second? -/
def takesAll : List Ty → List Ty → Bool
  | [], _ => true
  | p :: ps, q :: qs => isSubtype q p && takesAll ps qs
  | _ :: _, [] => false
termination_by ps qs => sizeOf ps + sizeOf qs

end

/-! ## Text -/

mutual

/-- **A type as text.** -/
def text : Ty → String
  | option t => "Option<" ++ text t ++ ">"
  | some t => "Some<" ++ text t ++ ">"
  | list t => "list<" ++ text t ++ ">"
  | map k v => "map<" ++ text k ++ ", " ++ text v ++ ">"
  | func r ps => "fn(" ++ ", ".intercalate (textAll ps) ++ ") -> " ++ text r
  | struct fields => "\x7b" ++ ", ".intercalate (textFields fields) ++ "\x7d"
  | t => t.name

/-- The texts of a list of types. -/
def textAll : List Ty → List String
  | [] => []
  | t :: ts => text t :: textAll ts

/-- The texts of the fields of a struct type. -/
def textFields : List (String × Ty) → List String
  | [] => []
  | (name, t) :: rest => (name ++ ": " ++ text t) :: textFields rest

end

end Ty

end Ascription
