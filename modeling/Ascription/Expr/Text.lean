import Ascription.Expr

/-!
# Expr/Text — the canonical text of an expression

The text shows every annotation and as few parentheses as the grammar allows.  Binary operators
associate to the left, so a left operand stands bare unless it is a lambda; any other operand is put
in parentheses when it is a binary operation or a lambda.  The target of a call, field access or
index is also put in parentheses when it is a negation or would read as part of a number.
-/

namespace Ascription

namespace Expr

/-- Is the outermost node a binary operation? -/
def isBinary : Expr → Bool
  | binary _ _ _ _ => true
  | _ => false

/-- Is the outermost node a lambda? -/
def isLambda : Expr → Bool
  | lambda _ _ _ => true
  | _ => false

/-- Is the outermost node a negation? -/
def isNegative : Expr → Bool
  | negative _ _ => true
  | _ => false

/-- Would the text of the expression run into a point or bracket behind it? -/
def readsAsNumber : Expr → Bool
  | literal _ (.int _) => true
  | literal _ (.float x) => x.negative
  | _ => false

/-- Does the expression need parentheses as a target? -/
def isLoose (e : Expr) : Bool :=
  e.isNegative || e.readsAsNumber || e.isBinary || e.isLambda

/-- Text in parentheses. -/
def parenthesized (needed : Bool) (text : String) : String :=
  if needed then "(" ++ text ++ ")" else text

mutual

/-- **The canonical text of an expression.** -/
def text : Expr → String
  | get _ name type => name ++ ":" ++ type.text
  | literal _ v => v.text
  | binary _ op l r =>
    parenthesized l.isLambda (text l) ++ " " ++ op.text ++ " " ++
      parenthesized (r.isBinary || r.isLambda) (text r)
  | negative _ e => "- " ++ parenthesized (e.isBinary || e.isLambda) (text e)
  | call _ target name result args =>
    parenthesized target.isLoose (text target) ++ "." ++ name ++ ":" ++ result.text ++
      "(" ++ ", ".intercalate (textAll args) ++ ")"
  | lambda _ params body => "|" ++ ", ".intercalate params ++ "| " ++ text body
  | list _ items => "[" ++ ", ".intercalate (textAll items) ++ "]"
  | struct _ fields => "\x7b" ++ ", ".intercalate (textFields fields) ++ "\x7d"
  | field _ target name type =>
    parenthesized target.isLoose (text target) ++ "." ++ name ++ ":" ++ type.text
  | offset _ target key =>
    parenthesized target.isLoose (text target) ++ "[" ++ text key ++ "]"

/-- The texts of a list of expressions. -/
def textAll : List Expr → List String
  | [] => []
  | e :: es => text e :: textAll es

/-- The texts of the fields of a struct literal. -/
def textFields : List (String × Expr) → List String
  | [] => []
  | (name, e) :: rest => (name ++ ": " ++ text e) :: textFields rest

end

end Expr

end Ascription
