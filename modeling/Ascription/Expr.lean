import Ascription.Number.Notation
import Ascription.Source.Span
import Ascription.Ty

/-!
# Expr — expression trees

Every variable, call and field access carries its type, every node its span.  The tree is the same
whether a text was read for it or it was built by hand; `equal` looks at everything but the spans.
-/

namespace Ascription

/-- A literal. -/
inductive Literal
  | string (s : String)
  | int (n : Int64)
  | float (x : Binary64)
  | bool (b : Bool)
  | none
  deriving DecidableEq

namespace Literal

/-- The type of a literal. -/
def type : Literal → Ty
  | string _ => .string
  | int _ => .int
  | float _ => .float
  | bool _ => .bool
  | none => .none

/-- **A literal as source text.** Strings have no escapes; a finite float always shows a point. -/
def text : Literal → String
  | string s => "\"" ++ s ++ "\""
  | int n => toString n.toInt
  | float x =>
    let digits := Notation.plain.text x
    if digits.toList.contains '.' || !x.isFinite then digits else digits ++ ".0"
  | bool b => if b then "true" else "false"
  | none => "None"

/-- Equality of literals; floats compare as numbers. -/
def equal : Literal → Literal → Bool
  | string s, string t => s == t
  | int m, int n => m == n
  | float x, float y => x.equal y
  | bool a, bool b => a == b
  | none, none => true
  | _, _ => false

end Literal

/-- The binary operators. -/
inductive BinaryOp
  | eq
  | or
  | gt
  | subtract
  deriving DecidableEq

/-- How a binary operator is spelled. -/
def BinaryOp.text : BinaryOp → String
  | eq => "==="
  | or => "||"
  | gt => ">"
  | subtract => "-"

/-- An expression. -/
inductive Expr
  | get (span : Span) (name : String) (type : Ty)
  | literal (span : Span) (value : Literal)
  | binary (span : Span) (op : BinaryOp) (left right : Expr)
  | negative (span : Span) (operand : Expr)
  | call (span : Span) (target : Expr) (name : String) (result : Ty) (args : List Expr)
  | lambda (span : Span) (params : List String) (body : Expr)
  | list (span : Span) (items : List Expr)
  | struct (span : Span) (fields : List (String × Expr))
  | field (span : Span) (target : Expr) (name : String) (type : Ty)
  | offset (span : Span) (target key : Expr)
  deriving Inhabited

/-- The forms of expressions. -/
inductive Form
  | get
  | literal
  | eq
  | or
  | gt
  | subtract
  | negative
  | call
  | lambda
  | list
  | struct
  | field
  | offset
  deriving DecidableEq

namespace Form

/-- All forms. -/
def all : List Form :=
  [get, literal, eq, or, gt, subtract, negative, call, lambda, list, struct, field, offset]

/-- The form as messages name it. -/
def name : Form → String
  | get => "Get"
  | literal => "Literal"
  | eq => "Eq"
  | or => "Or"
  | gt => "Gt"
  | subtract => "Subtract"
  | negative => "Negative"
  | call => "Call"
  | lambda => "Lambda"
  | list => "ListLiteral"
  | struct => "StructLiteral"
  | field => "FieldAccess"
  | offset => "Offset"

end Form

/-- The form of a binary operator. -/
def BinaryOp.form : BinaryOp → Form
  | eq => .eq
  | or => .or
  | gt => .gt
  | subtract => .subtract

namespace Expr

/-- The span of the outermost node. -/
def span : Expr → Span
  | get s _ _ | literal s _ | binary s _ _ _ | negative s _ | call s _ _ _ _ | lambda s _ _
  | list s _ | struct s _ | field s _ _ _ | offset s _ _ => s

/-- The same expression with another span on its outermost node. -/
def withSpan (s : Span) : Expr → Expr
  | get _ n t => get s n t
  | literal _ v => literal s v
  | binary _ op l r => binary s op l r
  | negative _ e => negative s e
  | call _ t n r as => call s t n r as
  | lambda _ ps b => lambda s ps b
  | list _ es => list s es
  | struct _ fs => struct s fs
  | field _ t n ty => field s t n ty
  | offset _ t k => offset s t k

/-- The form of the outermost node. -/
def form : Expr → Form
  | get _ _ _ => .get
  | literal _ _ => .literal
  | binary _ op _ _ => op.form
  | negative _ _ => .negative
  | call _ _ _ _ _ => .call
  | lambda _ _ _ => .lambda
  | list _ _ => .list
  | struct _ _ => .struct
  | field _ _ _ _ => .field
  | offset _ _ _ => .offset

/-- The parts of an expression, from left to right. -/
def children : Expr → List Expr
  | get _ _ _ | literal _ _ => []
  | binary _ _ l r => [l, r]
  | negative _ e => [e]
  | call _ t _ _ as => t :: as
  | lambda _ _ b => [b]
  | list _ es => es
  | struct _ fs => fs.map Prod.snd
  | field _ t _ _ => [t]
  | offset _ t k => [t, k]

/-! ## Static types -/

/-- The type of the elements behind an index: those of a list, the values of a map. -/
def elementType (target : Ty) : Ty :=
  match target.canonical with
  | .list element => element
  | .map _ value => value
  | _ => .any

mutual

/-- **The static type of an expression.** Lambdas have none, nor what takes its type from one. -/
def type? : Expr → Option Ty
  | get _ _ t => some t
  | literal _ v => some v.type
  | binary _ .subtract l _ => type? l
  | binary _ _ _ _ => some .bool
  | negative _ e => type? e
  | call _ _ _ r _ => some r
  | lambda _ _ _ => none
  | list _ [] => some (.list .never)
  | list _ (e :: _) => (type? e).map .list
  | struct _ fs => (fieldTypes? fs).map .record
  | field _ _ _ t => some t
  | offset _ t _ => (type? t).map elementType

/-- The static types of the fields of a struct literal. -/
def fieldTypes? : List (String × Expr) → Option (List (String × Ty))
  | [] => some []
  | (name, e) :: rest =>
    match type? e, fieldTypes? rest with
    | some t, some ts => some ((name, t) :: ts)
    | _, _ => none

end

/-! ## Equality -/

mutual

/-- **Equality of expressions**, apart from spans; types are compared by `Ty.equal`. -/
def equal : Expr → Expr → Bool
  | get _ n t, get _ n' t' => n == n' && t.equal t'
  | literal _ v, literal _ v' => v.equal v'
  | binary _ op l r, binary _ op' l' r' => op == op' && equal l l' && equal r r'
  | negative _ e, negative _ e' => equal e e'
  | call _ t n r as, call _ t' n' r' as' =>
    equal t t' && n == n' && r.equal r' && equalAll as as'
  | lambda _ ps b, lambda _ ps' b' => ps == ps' && equal b b'
  | list _ es, list _ es' => equalAll es es'
  | struct _ fs, struct _ fs' => equalFields fs fs'
  | field _ t n ty, field _ t' n' ty' => equal t t' && n == n' && ty.equal ty'
  | offset _ t k, offset _ t' k' => equal t t' && equal k k'
  | _, _ => false

/-- Equality of two lists of expressions, place by place. -/
def equalAll : List Expr → List Expr → Bool
  | [], [] => true
  | e :: es, e' :: es' => equal e e' && equalAll es es'
  | _, _ => false

/-- Equality of the fields of two struct literals, place by place. -/
def equalFields : List (String × Expr) → List (String × Expr) → Bool
  | [], [] => true
  | (n, e) :: fs, (n', e') :: fs' => n == n' && equal e e' && equalFields fs fs'
  | _, _ => false

end

end Expr

end Ascription
