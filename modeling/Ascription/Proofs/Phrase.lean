import Ascription.Expr
import Ascription.Parser.Expr

/-!
# Proofs/Phrase — expressions as they are written

A `Phrase` is what the grammar alone makes of a text: each name with the annotation written behind
it, no type looked up, no variable resolved, no static rule applied.  Parentheses leave no trace.
`elaborate` is the second pass: it goes over a phrase from left to right, carries the declarations
along, looks the types up and applies the rules.
-/

namespace Ascription

/-- **An untyped tree.** Spans of single tokens are kept where the typed tree or an error needs
them; those of larger parts are put together by the second pass. -/
inductive Phrase
  | declaration (name : String) (span : Span) (type : TypeExpr) (body : Phrase)
  | reference (span : Span) (name : String) (ascribed : Option TypeExpr)
  | literal (span : Span) (value : Literal)
  | binary (op : BinaryOp) (left right : Phrase)
  | negative (start : Span) (operand : Phrase)
  | call (target : Phrase) (name : String) (result : TypeExpr) (args : List Phrase) (stop : Span)
  | lambda (start : Span) (params : List String) (body : Phrase)
  | list (span : Span) (items : List Phrase)
  | struct (span : Span) (fields : List (String × Span × Phrase))
  | field (target : Phrase) (name : String) (span : Span) (ascribed : Option TypeExpr)
      (stop : Span)
  | offset (target key : Phrase) (stop : Span)

namespace Phrase

/-- The verdict of a static rule, as that of a whole text. -/
def ruled {α : Type} (verdict : Except TypeError α) : Except ParseError α :=
  verdict.mapError ParseError.illTyped

/-- The type of an annotation, if there is one. -/
def annotated (r : Registry) : Option TypeExpr → Except TypeError (Option Ty)
  | none => .ok none
  | some t => (r.resolve t).map some

/-- An expression's static type with its span. -/
def typed (e : Expr) : Except TypeError Typed := do
  let t ← Parser.staticType e
  return ⟨t, e.span⟩

/-- The static rule of two operands joined by an operator. -/
def joinRule (op : BinaryOp) (left right : Expr) : Except TypeError Unit := do
  let l ← typed left
  let r ← typed right
  Parser.operatorRule op l r

/-- The static rule of a negation. -/
def negationRule (operand : Expr) : Except TypeError Unit := do
  let t ← typed operand
  Rule.negation t

/-- The static rule of the elements behind the first one of a list. -/
def elementRule (first : Ty) : List Expr → Except TypeError Unit
  | [] => .ok ()
  | e :: es => do
    let t ← typed e
    Rule.listElement first t
    elementRule first es

/-- The static rule of a list literal. -/
def listRule : List Expr → Except TypeError Unit
  | [] => .ok ()
  | first :: others => do
    let t ← Parser.staticType first
    elementRule t others

/-- The type of a field access. -/
def fieldRule (target : Expr) (name : String) (ascribed : Option Ty) (span : Span) :
    Except TypeError Ty := do
  let t ← Parser.staticType target
  Rule.fieldType t name ascribed span

/-- The static rule of an index. -/
def offsetRule (target key : Expr) : Except TypeError Ty := do
  let t ← typed target
  let k ← typed key
  Rule.offsetType t k

mutual

/-- **The second pass**: the typed tree of a phrase, read with the variables declared before it,
and the variables declared behind it. -/
@[simp] def elaborate (r : Registry) :
    Phrase → Declarations → Except ParseError (Expr × Declarations)
  | .declaration name span type body, ds => do
    let t ← ruled (r.resolve type)
    let ds ← ruled (ds.declare name t span)
    elaborate r body ds
  | .reference span name (some ascribed), ds => do
    let t ← ruled (r.resolve ascribed)
    let t ← ruled (ds.checkAnnotated name t span)
    return (.get span name t, ds)
  | .reference span name none, ds =>
    match ds.find? name with
    | some d => .ok (.get span name d.type, ds)
    | none => .error (.malformed ⟨.undeclared name, span⟩)
  | .literal span value, ds => .ok (.literal span value, ds)
  | .binary op left right, ds => do
    let (l, ds) ← elaborate r left ds
    let (e, ds) ← elaborate r right ds
    ruled (joinRule op l e)
    return (.binary (Span.merge l.span e.span) op l e, ds)
  | .negative start operand, ds => do
    let (e, ds) ← elaborate r operand ds
    ruled (negationRule e)
    return (.negative (Span.merge start e.span) e, ds)
  | .call target name result args stop, ds => do
    let (t, ds) ← elaborate r target ds
    let result ← ruled (r.resolve result)
    let (es, ds) ← elaborateAll r [] args ds
    return (.call (Span.merge t.span stop) t name result es, ds)
  | .lambda start params body, ds => do
    let (e, ds) ← elaborate r body ds
    return (.lambda (Span.merge start e.span) params e, ds)
  | .list span items, ds => do
    let (es, ds) ← elaborateAll r [] items ds
    ruled (listRule es)
    return (.list span es, ds)
  | .struct span fields, ds => do
    let (fs, ds) ← elaborateFields r [] fields ds
    return (.struct span fs, ds)
  | .field target name span ascribed stop, ds => do
    let (t, ds) ← elaborate r target ds
    let type ← ruled (annotated r ascribed)
    let type ← ruled (fieldRule t name type span)
    return (.field (Span.merge t.span stop) t name type, ds)
  | .offset target key stop, ds => do
    let (t, ds) ← elaborate r target ds
    let (k, ds) ← elaborate r key ds
    let _ ← ruled (offsetRule t k)
    return (.offset (Span.merge t.span stop) t k, ds)

/-- The typed trees of a list of phrases, behind those already done. -/
@[simp] def elaborateAll (r : Registry) (done : List Expr) :
    List Phrase → Declarations → Except ParseError (List Expr × Declarations)
  | [], ds => .ok (done, ds)
  | u :: us, ds => do
    let (e, ds) ← elaborate r u ds
    elaborateAll r (done ++ [e]) us ds

/-- The fields of a struct literal behind those already done, no name twice. -/
@[simp] def elaborateFields (r : Registry) (done : List (String × Expr)) :
    List (String × Span × Phrase) → Declarations →
      Except ParseError (List (String × Expr) × Declarations)
  | [], ds => .ok (done, ds)
  | (name, span, u) :: rest, ds =>
    if Entries.contains done name then ruled (.error (.duplicateField name span))
    else do
      let (e, ds) ← elaborate r u ds
      let _ ← ruled (typed e)
      elaborateFields r (done ++ [(name, e)]) rest ds

end

end Phrase

end Ascription
