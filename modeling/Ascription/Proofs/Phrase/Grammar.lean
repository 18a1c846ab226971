import Ascription.Proofs.Phrase

/-!
# Proofs/Phrase/Grammar — which token lists are which phrases

    expr    := 'declare' name ':' type expr | operand (operator operand)*
    operand := '-' operand | primary step*
    step    := '.' name [ ':' type [ '(' exprs ')' ] ] | '[' expr ']'
    primary := literal | name [ ':' type ] | '|' names '|' expr | '||' expr
             | '(' expr ')' | '[' exprs ']' | '{' fields '}'
    type    := name [ '<' types '>' ] | 'fn' '(' types ')' '->' type | '{' type fields '}'

Each production is a constructor of a relation between two **places** of a token list and what
stands between them.  Three productions look at the token behind them: the body of a lambda reaches
as far to the right as it can, the name of a type takes the arguments that follow it, and `declare`
before a name starts a declaration.
-/

namespace Ascription

/-- A place in a token list: the span of the token before it, and the tokens to come. -/
structure Place where
  previous : Span
  tokens : List Token

namespace Place

/-- What the next token is. -/
def next (c : Place) : Option TokenKind := c.tokens.head?.map Token.kind

/-- Is an operator next? -/
def atOperator (c : Place) : Bool := (Parser.operator? c.next).isSome

/-- Is a step next? -/
def atStep (c : Place) : Bool :=
  c.next == some (.punct .dot) || c.next == some (.punct .leftBracket)

/-- Has all been read that goes on with an expression? -/
def settled (c : Place) : Bool := !c.atOperator && !c.atStep

/-- Is a declaration next? -/
def atDeclaration (c : Place) : Bool :=
  match c.tokens with
  | ⟨.name "declare", _⟩ :: ⟨.name _, _⟩ :: _ => true
  | _ => false

end Place

namespace Grammar

/-- **A list**: items with commas between them, possibly none; the last may be followed by a
comma. -/
inductive Listed {α : Type} (Item : Place → α → Place → Prop) : Place → List α → Place → Prop
  | none {c} : Listed Item c [] c
  | one {c x c'} (item : Item c x c') : Listed Item c [x] c'
  | more {c x p s ts xs c'} (item : Item c x ⟨p, ⟨.punct .comma, s⟩ :: ts⟩)
      (rest : Listed Item ⟨s, ts⟩ xs c') : Listed Item c (x :: xs) c'

/-- A name. -/
inductive Name : Place → String × Span → Place → Prop
  | name {p n s ts} : Name ⟨p, ⟨.name n, s⟩ :: ts⟩ (n, s) ⟨s, ts⟩

mutual

/-- **A type.** -/
inductive TypeName : Place → TypeExpr → Place → Prop
  | name {p n s ts} (less : Place.next ⟨s, ts⟩ ≠ some (.punct .less))
      (paren : n = "fn" → Place.next ⟨s, ts⟩ ≠ some (.punct .leftParen)) :
      TypeName ⟨p, ⟨.name n, s⟩ :: ts⟩ (.named s n []) ⟨s, ts⟩
  | applied {p n s s₁ ts args p' s₂ ts'}
      (list : Listed TypeName ⟨s₁, ts⟩ args ⟨p', ⟨.punct .greater, s₂⟩ :: ts'⟩) :
      TypeName ⟨p, ⟨.name n, s⟩ :: ⟨.punct .less, s₁⟩ :: ts⟩
        (.named (if args.isEmpty then s else Span.merge s s₂) n args) ⟨s₂, ts'⟩
  | func {p s s₁ ts params p' s₂ s₃ ts' result c}
      (list : Listed TypeName ⟨s₁, ts⟩ params
        ⟨p', ⟨.punct .rightParen, s₂⟩ :: ⟨.punct .arrow, s₃⟩ :: ts'⟩)
      (returns : TypeName ⟨s₃, ts'⟩ result c) :
      TypeName ⟨p, ⟨.name "fn", s⟩ :: ⟨.punct .leftParen, s₁⟩ :: ts⟩
        (.func (Span.merge s result.span) params result) c
  | struct {p s ts fields p' s₁ ts'}
      (list : Listed TypeField ⟨s, ts⟩ fields ⟨p', ⟨.punct .rightBrace, s₁⟩ :: ts'⟩) :
      TypeName ⟨p, ⟨.punct .leftBrace, s⟩ :: ts⟩ (.struct (Span.merge s s₁) fields) ⟨s₁, ts'⟩

/-- A field of a struct type. -/
inductive TypeField : Place → String × TypeExpr × Span → Place → Prop
  | field {p n s s' ts t c} (type : TypeName ⟨s', ts⟩ t c) :
      TypeField ⟨p, ⟨.name n, s⟩ :: ⟨.punct .colon, s'⟩ :: ts⟩ (n, t, Span.merge s t.span) c

end

mutual

/-- **An expression.** -/
inductive Expression : Place → Phrase → Place → Prop
  | declaration {p s n s₁ s₂ ts t c u c'} (type : TypeName ⟨s₂, ts⟩ t c)
      (body : Expression c u c') :
      Expression ⟨p, ⟨.name "declare", s⟩ :: ⟨.name n, s₁⟩ :: ⟨.punct .colon, s₂⟩ :: ts⟩
        (.declaration n s₁ t u) c'
  | operation {c u c' v c''} (start : c.atDeclaration = false) (first : Operand c u c')
      (others : Operators u c' v c'') : Expression c v c''

/-- The operands behind a first one, each with the operator before it. -/
inductive Operators : Phrase → Place → Phrase → Place → Prop
  | nil {u c} : Operators u c u c
  | cons {left p k s ts op right c u c'} (operator : Parser.operator? (some k) = some op)
      (operand : Operand ⟨s, ts⟩ right c) (others : Operators (.binary op left right) c u c') :
      Operators left ⟨p, ⟨k, s⟩ :: ts⟩ u c'

/-- An operand. -/
inductive Operand : Place → Phrase → Place → Prop
  | negation {p s ts u c} (operand : Operand ⟨s, ts⟩ u c) :
      Operand ⟨p, ⟨.punct .minus, s⟩ :: ts⟩ (.negative s u) c
  | steps {c u c' v c''} (primary : Primary c u c') (steps : Steps u c' v c'') : Operand c v c''

/-- The steps behind a target. -/
inductive Steps : Phrase → Place → Phrase → Place → Prop
  | nil {u c} : Steps u c u c
  | cons {target c v c' u c''} (step : Step target c v c') (others : Steps v c' u c'') :
      Steps target c u c''

/-- A step: a field access, a call or an index. -/
inductive Step : Phrase → Place → Phrase → Place → Prop
  | field {target p s n s₁ ts} :
      Step target ⟨p, ⟨.punct .dot, s⟩ :: ⟨.name n, s₁⟩ :: ts⟩ (.field target n s₁ none s₁)
        ⟨s₁, ts⟩
  | annotated {target p s n s₁ s₂ ts t c} (type : TypeName ⟨s₂, ts⟩ t c) :
      Step target ⟨p, ⟨.punct .dot, s⟩ :: ⟨.name n, s₁⟩ :: ⟨.punct .colon, s₂⟩ :: ts⟩
        (.field target n s₁ (some t) c.previous) c
  | call {target p s n s₁ s₂ ts t p' s₃ ts' args p'' s₄ ts''}
      (type : TypeName ⟨s₂, ts⟩ t ⟨p', ⟨.punct .leftParen, s₃⟩ :: ts'⟩)
      (list : Listed Expression ⟨s₃, ts'⟩ args ⟨p'', ⟨.punct .rightParen, s₄⟩ :: ts''⟩) :
      Step target ⟨p, ⟨.punct .dot, s⟩ :: ⟨.name n, s₁⟩ :: ⟨.punct .colon, s₂⟩ :: ts⟩
        (.call target n t args s₄) ⟨s₄, ts''⟩
  | offset {target p s ts key p' s₁ ts'}
      (index : Expression ⟨s, ts⟩ key ⟨p', ⟨.punct .rightBracket, s₁⟩ :: ts'⟩) :
      Step target ⟨p, ⟨.punct .leftBracket, s⟩ :: ts⟩ (.offset target key s₁) ⟨s₁, ts'⟩

/-- An innermost expression. -/
inductive Primary : Place → Phrase → Place → Prop
  | int {p n s ts} : Primary ⟨p, ⟨.int n, s⟩ :: ts⟩ (.literal s (.int n)) ⟨s, ts⟩
  | float {p x s ts} : Primary ⟨p, ⟨.float x, s⟩ :: ts⟩ (.literal s (.float x)) ⟨s, ts⟩
  | string {p t s ts} : Primary ⟨p, ⟨.string t, s⟩ :: ts⟩ (.literal s (.string t)) ⟨s, ts⟩
  | name {p n s ts} : Primary ⟨p, ⟨.name n, s⟩ :: ts⟩ (.reference s n none) ⟨s, ts⟩
  | annotated {p n s s₁ ts t c} (type : TypeName ⟨s₁, ts⟩ t c) :
      Primary ⟨p, ⟨.name n, s⟩ :: ⟨.punct .colon, s₁⟩ :: ts⟩
        (.reference (Span.merge s c.previous) n (some t)) c
  | lambda {p s ts params p' s₁ ts' u c}
      (list : Listed Name ⟨s, ts⟩ params ⟨p', ⟨.punct .pipe, s₁⟩ :: ts'⟩)
      (body : Expression ⟨s₁, ts'⟩ u c) (greedy : c.settled = true) :
      Primary ⟨p, ⟨.punct .pipe, s⟩ :: ts⟩ (.lambda s (params.map Prod.fst) u) c
  | thunk {p s ts u c} (body : Expression ⟨s, ts⟩ u c)
      (greedy : c.settled = true) :
      Primary ⟨p, ⟨.punct .doublePipe, s⟩ :: ts⟩ (.lambda s [] u) c
  | parens {p s ts u p' s₁ ts'}
      (inner : Expression ⟨s, ts⟩ u ⟨p', ⟨.punct .rightParen, s₁⟩ :: ts'⟩) :
      Primary ⟨p, ⟨.punct .leftParen, s⟩ :: ts⟩ u ⟨s₁, ts'⟩
  | list {p s ts items p' s₁ ts'}
      (list : Listed Expression ⟨s, ts⟩ items ⟨p', ⟨.punct .rightBracket, s₁⟩ :: ts'⟩) :
      Primary ⟨p, ⟨.punct .leftBracket, s⟩ :: ts⟩ (.list (Span.merge s s₁) items) ⟨s₁, ts'⟩
  | struct {p s ts fields p' s₁ ts'}
      (list : Listed Field ⟨s, ts⟩ fields ⟨p', ⟨.punct .rightBrace, s₁⟩ :: ts'⟩) :
      Primary ⟨p, ⟨.punct .leftBrace, s⟩ :: ts⟩ (.struct (Span.merge s s₁) fields) ⟨s₁, ts'⟩

/-- A field of a struct literal. -/
inductive Field : Place → String × Span × Phrase → Place → Prop
  | field {p n s s₁ ts u c} (value : Expression ⟨s₁, ts⟩ u c) :
      Field ⟨p, ⟨.name n, s⟩ :: ⟨.punct .colon, s₁⟩ :: ts⟩ (n, s, u) c

end

/-- **A whole token list derives a phrase.** -/
def Derives (tokens : List Token) (u : Phrase) : Prop :=
  ∃ stop, Expression ⟨Span.point Position.first, tokens⟩ u ⟨stop, []⟩

end Grammar

end Ascription
