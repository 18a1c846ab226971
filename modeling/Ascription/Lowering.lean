import Ascription.Expr

/-!
# Lowering — expressions for other languages

A **backend** writes expressions in another language and lists the forms it can write.
`lower` looks through the whole tree first: the first node of another form, counted from the
top and the left, is the error.
-/

namespace Ascription

/-- A node that a backend cannot write. -/
structure LowerError where
  backend : String
  form : Form
  span : Span

def LowerError.message (e : LowerError) : String :=
  e.backend ++ " cannot lower " ++ e.form.name ++ " expressions"

/-- A writer of expressions as values of type `α`. -/
structure Backend (α : Type) where
  name : String
  supported : List Form
  emit : Expr → Except LowerError α

namespace Expr

mutual

/-- **The first node of a form outside a list of forms**: the node itself, or the first one in its
parts from left to right. -/
def firstOutside (forms : List Form) : Expr → Option Expr
  | get s n t => if forms.contains .get then none else some (get s n t)
  | literal s v => if forms.contains .literal then none else some (literal s v)
  | binary s op l r =>
    if forms.contains op.form then (firstOutside forms l).or (firstOutside forms r)
    else some (binary s op l r)
  | negative s e => if forms.contains .negative then firstOutside forms e else some (negative s e)
  | call s t n r as =>
    if forms.contains .call then (firstOutside forms t).or (firstOutsideAll forms as)
    else some (call s t n r as)
  | lambda s ps b => if forms.contains .lambda then firstOutside forms b else some (lambda s ps b)
  | list s es => if forms.contains .list then firstOutsideAll forms es else some (list s es)
  | struct s fs =>
    if forms.contains .struct then firstOutsideFields forms fs else some (struct s fs)
  | field s t n ty => if forms.contains .field then firstOutside forms t else some (field s t n ty)
  | offset s t k =>
    if forms.contains .offset then (firstOutside forms t).or (firstOutside forms k)
    else some (offset s t k)

/-- The first such node in a list of expressions. -/
def firstOutsideAll (forms : List Form) : List Expr → Option Expr
  | [] => none
  | e :: es => (firstOutside forms e).or (firstOutsideAll forms es)

/-- The first such node in the fields of a struct literal. -/
def firstOutsideFields (forms : List Form) : List (String × Expr) → Option Expr
  | [] => none
  | (_, e) :: rest => (firstOutside forms e).or (firstOutsideFields forms rest)

end

end Expr

/-- **Lowering an expression**: every form is checked before anything is written. -/
def lower {α : Type} (backend : Backend α) (e : Expr) : Except LowerError α :=
  match e.firstOutside backend.supported with
  | some node => .error ⟨backend.name, node.form, node.span⟩
  | none => backend.emit e

end Ascription
