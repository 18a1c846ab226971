import Ascription.Source.Span

/-!
# TypeExpr — types as they are written

What the type grammar reads: names with arguments, function types and struct types, each with its
span.  No name has been looked up yet.
-/

namespace Ascription

/-- A written type; the span of a struct field covers its name and its type. -/
inductive TypeExpr
  | named (span : Span) (name : String) (args : List TypeExpr)
  | func (span : Span) (params : List TypeExpr) (result : TypeExpr)
  | struct (span : Span) (fields : List (String × TypeExpr × Span))
  deriving Inhabited

namespace TypeExpr

def span : TypeExpr → Span
  | named s _ _ | func s _ _ | struct s _ => s

mutual

/-- **A written type as text**, in the canonical spacing. -/
def text : TypeExpr → String
  | named _ name [] => name
  | named _ name (arg :: args) =>
    name ++ "<" ++ ", ".intercalate (text arg :: textAll args) ++ ">"
  | func _ params result => "fn(" ++ ", ".intercalate (textAll params) ++ ") -> " ++ text result
  | struct _ fields => "\x7b" ++ ", ".intercalate (textFields fields) ++ "\x7d"

/-- The texts of a list of written types. -/
def textAll : List TypeExpr → List String
  | [] => []
  | t :: ts => text t :: textAll ts

/-- The texts of the fields of a struct type. -/
def textFields : List (String × TypeExpr × Span) → List String
  | [] => []
  | (name, t, _) :: rest => (name ++ ": " ++ text t) :: textFields rest

end

end TypeExpr

end Ascription
