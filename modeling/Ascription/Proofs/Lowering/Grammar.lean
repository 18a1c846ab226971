import Ascription.Lowering.Rust

/-!
# Proofs/Lowering/Grammar — what Rust source shows

    expr    := chain [ ' ' operator ' ' chain ] | '-' chain | '|' names '| ' expr
    chain   := primary step*
    step    := '.' name | '[' chain ' as usize]' | '[&' chain ']'
    primary := name [ '(' exprs ')' ] | 'vec![' exprs ']' | number | string | '(' expr ')'

What source shows of an expression is its **outline**: no spans and no types, but whether an index
is that of a map; and the sign of a number is a negation.  Each production is a constructor of a
relation between characters, the outline that the first of them show, and the characters behind.
-/

namespace Ascription

namespace Rust

/-! ## Outlines -/

/-- **What source shows of an expression.** -/
inductive Outline
  | name (n : String)
  | string (s : String)
  | int (n : Nat)
  | float (x : Binary64)
  | bool (b : Bool)
  | none
  | binary (op : BinaryOp) (left right : Outline)
  | negative (operand : Outline)
  | call (target : Outline) (name : String) (args : List Outline)
  | lambda (params : List String) (body : Outline)
  | list (items : List Outline)
  | struct (fields : List (String × Outline))
  | field (target : Outline) (name : String)
  | offset (target : Outline) (ofMap : Bool) (key : Outline)

namespace Outline

/-- A negation, if there is a sign. -/
def signed (negative : Bool) (o : Outline) : Outline := if negative then .negative o else o

/-- A literal: a number without its sign, behind a negation if it has one. -/
def ofLiteral : Literal → Outline
  | .string s => string s
  | .int n => signed (n < 0) (int n.toInt.natAbs)
  | .float x => signed x.negative (float ⟨false, x.code⟩)
  | .bool b => bool b
  | .none => none

end Outline

mutual

/-- **The outline of an expression.** -/
def outline : Expr → Outline
  | .get _ n _ => .name n
  | .literal _ v => .ofLiteral v
  | .binary _ op l r => .binary op (outline l) (outline r)
  | .negative _ e => .negative (outline e)
  | .call _ t n _ as => .call (outline t) n (outlineAll as)
  | .lambda _ ps b => .lambda ps (outline b)
  | .list _ es => .list (outlineAll es)
  | .struct _ fs => .struct (outlineFields fs)
  | .field _ t n _ => .field (outline t) n
  | .offset _ t k => .offset (outline t) (isMap t) (outline k)

/-- The outlines of a list of expressions. -/
def outlineAll : List Expr → List Outline
  | [] => []
  | e :: es => outline e :: outlineAll es

/-- The outlines of the fields of a struct literal. -/
def outlineFields : List (String × Expr) → List (String × Outline)
  | [] => []
  | (n, e) :: fs => (n, outline e) :: outlineFields fs

end

/-! ## Words -/

/-- A character that a name starts with. -/
def startsName (c : Char) : Bool := c.isAlpha || c == '_'

/-- A character of a name. -/
def isNameChar (c : Char) : Bool := c.isAlphanum || c == '_'

/-- **An identifier** of ASCII letters, digits and underscores. -/
def isIdentifier (n : String) : Bool :=
  match n.toList with
  | [] => false
  | c :: cs => startsName c && cs.all isNameChar

/-- A name. -/
structure Word (cs : List Char) (n : String) (rest : List Char) : Prop where
  identifier : isIdentifier n = true
  text : cs = n.toList ++ rest

/-- A number without a sign: its digits, and what its type starts with. -/
inductive Number : List Char → Char → Outline → Prop
  | int {n} : Number (Notation.digits n) 'i' (.int n)
  | float {x} (finite : x.isFinite = true) (positive : x.negative = false) :
      Number (Notation.value.magnitude x) 'f' (.float x)

/-- A literal without a sign. -/
inductive Unsigned : List Char → Outline → List Char → Prop
  | string {cs s rest} (text : cs = (quoted s).toList ++ rest) : Unsigned cs (.string s) rest
  | number {cs ds c o rest} (number : Number ds c o) (text : cs = ds ++ c :: '6' :: '4' :: rest) :
      Unsigned cs o rest

/-! ## Productions -/

/-- **A list**: items with commas between them, possibly none. -/
inductive Listed {α : Type} (Item : List Char → α → List Char → Prop) :
    List Char → List α → List Char → Prop
  | none {cs} : Listed Item cs [] cs
  | one {cs x rest} (item : Item cs x rest) : Listed Item cs [x] rest
  | more {cs x mid xs rest} (item : Item cs x (',' :: ' ' :: mid))
      (others : Listed Item mid xs rest) : Listed Item cs (x :: xs) rest

mutual

/-- **An expression.** -/
inductive Expression : List Char → Outline → List Char → Prop
  | operation {cs left mid o rest} (first : Chain cs left mid) (second : Second left mid o rest) :
      Expression cs o rest
  | negation {cs o rest} (operand : Chain cs o rest) : Expression ('-' :: cs) (.negative o) rest
  | lambda {cs params mid o rest} (list : Listed Word cs params ('|' :: ' ' :: mid))
      (body : Expression mid o rest) : Expression ('|' :: cs) (.lambda params o) rest

/-- What may go on with an expression behind its first operand: an operator and a second one. -/
inductive Second : Outline → List Char → Outline → List Char → Prop
  | none {left cs} : Second left cs left cs
  | some {left op cs mid right rest} (text : cs = ' ' :: ((operator op).toList ++ ' ' :: mid))
      (operand : Chain mid right rest) : Second left cs (.binary op left right) rest

/-- **An operand**: a primary and its steps. -/
inductive Chain : List Char → Outline → List Char → Prop
  | steps {cs target mid o rest} (primary : Primary cs target mid)
      (steps : Steps target mid o rest) : Chain cs o rest

/-- The steps behind a target. -/
inductive Steps : Outline → List Char → Outline → List Char → Prop
  | nil {target cs} : Steps target cs target cs
  | cons {target cs u mid o rest} (step : Step target cs u mid) (others : Steps u mid o rest) :
      Steps target cs o rest

/-- A step: a field access or an index. -/
inductive Step : Outline → List Char → Outline → List Char → Prop
  | field {target cs n rest} (word : Word cs n rest) :
      Step target ('.' :: cs) (.field target n) rest
  | offset {target cs key mid rest} (index : Chain cs key mid)
      (text : mid = " as usize]".toList ++ rest) :
      Step target ('[' :: cs) (.offset target false key) rest
  | mapOffset {target cs key rest} (index : Chain cs key (']' :: rest)) :
      Step target ('[' :: '&' :: cs) (.offset target true key) rest

/-- An innermost expression. -/
inductive Primary : List Char → Outline → List Char → Prop
  | word {cs n mid o rest} (word : Word cs n mid) (named : Named n mid o rest) : Primary cs o rest
  | literal {cs o rest} (literal : Unsigned cs o rest) : Primary cs o rest
  | parens {cs o rest} (inner : Expression cs o (')' :: rest)) : Primary ('(' :: cs) o rest

/-- What a name stands for: itself, a call, or a list behind the name of the macro. -/
inductive Named : String → List Char → Outline → List Char → Prop
  | self {n cs} : Named n cs (.name n) cs
  | call {n cs target args rest} (list : Listed Expression cs (target :: args) (')' :: rest)) :
      Named n ('(' :: cs) (.call target n args) rest
  | list {cs items rest} (list : Listed Expression cs items (']' :: rest)) :
      Named "vec" ('!' :: '[' :: cs) (.list items) rest

end

end Rust

end Ascription
