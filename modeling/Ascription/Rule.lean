import Ascription.TypeError

/-!
# Rule — the static rules of the expression forms

Each rule takes the types of the parts of an expression, with their spans, and accepts or names the
part that is wrong.
-/

namespace Ascription

/-- A type and the span of the expression that has it. -/
structure Typed where
  type : Ty
  span : Span

namespace Rule

/-- The found type has to equal the expected one. -/
def expectEqual (expected : Ty) (found : Typed) : Except TypeError Unit :=
  if found.type.equal expected then .ok ()
  else .error (.mismatch expected found.type found.span)

/-- The operand has to be a number. -/
def expectNumeric (op : Operator) (operand : Typed) : Except TypeError Unit :=
  if operand.type.isNumeric then .ok ()
  else .error (.badOperand op .number operand.type operand.span)

/-- The operand has to be a truth value. -/
def expectBool (op : Operator) (operand : Typed) : Except TypeError Unit :=
  if operand.type.isBool then .ok ()
  else .error (.badOperand op .bool operand.type operand.span)

/-- **`===`**: both sides have one type. -/
def equality (left right : Typed) : Except TypeError Unit := expectEqual left.type right

/-- **`||`**: both sides are truth values. -/
def disjunction (left right : Typed) : Except TypeError Unit := do
  expectBool .or left
  expectBool .or right

/-- **`-` and `>`**: both sides are numbers of one type. -/
def arithmetic (op : Operator) (left right : Typed) : Except TypeError Unit := do
  expectNumeric op left
  expectNumeric op right
  expectEqual left.type right

/-- **Negation**: the operand is a number. -/
def negation (operand : Typed) : Except TypeError Unit := expectNumeric .minus operand

/-- **Field access**: on a struct type the field exists and its type is the annotated one; on any
other type the annotation decides. -/
def fieldType (target : Ty) (field : String) (annotated : Option Ty) (span : Span) :
    Except TypeError Ty :=
  match target.fields?, annotated with
  | some fields, annotated =>
    match fields.lookup field with
    | none => .error (.noSuchField target field span)
    | some type =>
      match annotated with
      | none => .ok type
      | some a => do
        expectEqual type ⟨a, span⟩
        .ok type
  | none, some a => .ok a
  | none, none => .error (.notAStruct target field span)

/-- **Indexing**: lists take integers, maps take their keys, nothing else is indexed. -/
def offsetType (target key : Typed) : Except TypeError Ty :=
  match target.type.canonical with
  | .list element => do
    expectEqual .int key
    .ok element
  | .map k v => do
    expectEqual k key
    .ok v
  | _ => .error (.notIndexable target.type target.span)

/-- **List elements**: each is a subtype of the first. -/
def listElement (first : Ty) (element : Typed) : Except TypeError Unit :=
  if element.type.isSubtype first then .ok ()
  else .error (.mismatch first element.type element.span)

end Rule

end Ascription
