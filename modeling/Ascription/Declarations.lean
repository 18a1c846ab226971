import Ascription.TypeError

/-!
# Declarations — the variables of a text and their types

Each variable is declared at most once; the entries keep the order of declaration.
-/

namespace Ascription

/-- A declared variable. -/
structure Declaration where
  name : String
  type : Ty
  span : Span

/-- The declared variables, in the order of declaration. -/
abbrev Declarations := List Declaration

namespace Declarations

/-- The declaration of a variable. -/
def find? (ds : Declarations) (name : String) : Option Declaration :=
  List.find? (fun d => d.name == name) ds

/-- **Declaring a variable.** -/
def declare (ds : Declarations) (name : String) (type : Ty) (span : Span) :
    Except TypeError Declarations :=
  match find? ds name with
  | some previous => .error (.redeclared name span previous.span)
  | none => .ok (ds ++ [⟨name, type, span⟩])

/-- Declaring a variable that no text declares. -/
def declareSynthetic (ds : Declarations) (name : String) (type : Ty) :
    Except TypeError Declarations :=
  declare ds name type Span.synthetic

/-- The type of an annotated variable: the annotation, which has to equal the declared type where
there is one. -/
def checkAnnotated (ds : Declarations) (name : String) (annotated : Ty) (span : Span) :
    Except TypeError Ty :=
  match find? ds name with
  | some d =>
    if d.type.equal annotated then .ok annotated
    else .error (.declarationConflict name d.type annotated span d.span)
  | none => .ok annotated

end Declarations

end Ascription
