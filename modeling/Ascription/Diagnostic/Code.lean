/-!
# Diagnostic/Code — the numbered errors

Every kind of error has a code, a title and a category; the second and third characters of a code
give the category.
-/

namespace Ascription

/-- The phase that raises an error. -/
inductive Category
  | form
  | typing
  | evaluation
  | lowering
  deriving DecidableEq

def Category.text : Category → String
  | form => "Syntax"
  | typing => "Type"
  | evaluation => "Evaluation"
  | lowering => "Lowering"

/-- A numbered kind of error. -/
structure ErrorCode where
  code : String
  title : String
  category : Category

namespace ErrorCode

/-- **All codes**, in ascending order. -/
def all : List ErrorCode := [
  ⟨"E0100", "invalid syntax", .form⟩,
  ⟨"E0101", "unexpected character", .form⟩,
  ⟨"E0102", "unterminated string literal", .form⟩,
  ⟨"E0103", "incomplete equality operator", .form⟩,
  ⟨"E0104", "invalid number", .form⟩,
  ⟨"E0105", "expected token not found", .form⟩,
  ⟨"E0106", "unexpected token", .form⟩,
  ⟨"E0107", "undeclared variable", .form⟩,
  ⟨"E0108", "call without return type", .form⟩,
  ⟨"E0200", "unknown type", .typing⟩,
  ⟨"E0201", "type takes no arguments", .typing⟩,
  ⟨"E0202", "wrong number of type arguments", .typing⟩,
  ⟨"E0203", "invalid map key type", .typing⟩,
  ⟨"E0204", "duplicate field", .typing⟩,
  ⟨"E0205", "mismatched types", .typing⟩,
  ⟨"E0206", "invalid operand", .typing⟩,
  ⟨"E0207", "variable declared twice", .typing⟩,
  ⟨"E0208", "annotation conflicts with declaration", .typing⟩,
  ⟨"E0209", "name already defined", .typing⟩,
  ⟨"E0210", "built-in name redefined", .typing⟩,
  ⟨"E0211", "lambda has no static type", .typing⟩,
  ⟨"E0212", "field access on non-struct", .typing⟩,
  ⟨"E0213", "no such field", .typing⟩,
  ⟨"E0214", "type cannot be indexed", .typing⟩,
  ⟨"E0300", "undefined variable", .evaluation⟩,
  ⟨"E0301", "undefined function", .evaluation⟩,
  ⟨"E0302", "value does not match declared type", .evaluation⟩,
  ⟨"E0303", "wrong number of arguments", .evaluation⟩,
  ⟨"E0304", "invalid argument", .evaluation⟩,
  ⟨"E0305", "invalid operand", .evaluation⟩,
  ⟨"E0306", "integer overflow", .evaluation⟩,
  ⟨"E0307", "no such field", .evaluation⟩,
  ⟨"E0308", "field access on non-struct", .evaluation⟩,
  ⟨"E0309", "missing key", .evaluation⟩,
  ⟨"E0310", "index out of bounds", .evaluation⟩,
  ⟨"E0311", "value cannot be indexed", .evaluation⟩,
  ⟨"E0312", "cannot infer type", .evaluation⟩,
  ⟨"E0313", "invalid scope", .evaluation⟩,
  ⟨"E0400", "node kind not supported by backend", .lowering⟩]

/-- The entry of a code. -/
def find? (code : String) : Option ErrorCode := all.find? fun c => c.code == code

end ErrorCode

end Ascription
