import Ascription.RuntimeError

/-!
# Value/Check — does a value have a type?

`check` follows a type into a value, in order, and stops at the first part that does not fit.  A
record fits a struct type when it has the fields, whatever its kind; it fits an object type by its
kind alone.
-/

namespace Ascription

namespace Value

/-- The mismatch of a whole value. -/
def misfit (t : Ty) (v : Value) : Except Mismatch Unit := .error ⟨.type t, v.typeName, []⟩

/-- The verdict on a part, as a verdict on the whole. -/
def checkPart (segment : PathSegment) (verdict : Except Mismatch Unit) : Except Mismatch Unit :=
  verdict.mapError (Mismatch.within segment)

/-- Checking the items of a list from place `i` on. -/
def checkItems (check : Value → Except Mismatch Unit) (i : Nat) :
    List Value → Except Mismatch Unit
  | [] => .ok ()
  | v :: vs => do
    checkPart (.index i) (check v)
    checkItems check (i + 1) vs

/-- Checking the entries of a map, of each the key first. -/
def checkEntries (checkKey check : Value → Except Mismatch Unit) :
    List (MapKey × Value) → Except Mismatch Unit
  | [] => .ok ()
  | (k, v) :: rest => do
    checkPart (.key k) (checkKey k.toValue)
    checkPart (.key k) (check v)
    checkEntries checkKey check rest

mutual

/-- The check of `checkAs`, with the type as it was written for the message. -/
def checkAs (written : Ty) : Ty → Value → Except Mismatch Unit
  | .aliased _ t, v => checkAs written t v
  | .any, _ => .ok ()
  | .string, .string _ => .ok ()
  | .int, .int _ => .ok ()
  | .float, .float _ => .ok ()
  | .bool, .bool _ => .ok ()
  | .none, .none => .ok ()
  | .option _, .none => .ok ()
  | .option t, v => checkAs t t v
  | .some t, v =>
    match v with
    | .none => misfit written v
    | v => checkAs t t v
  | .func _ _, .callable _ _ => .ok ()
  | .list t, .list vs => checkItems (checkAs t t) 0 vs
  | .map k t, .map es => checkEntries (checkAs k k) (checkAs t t) es
  | .struct fields, .record kind fs => checkFields fields kind fs
  | .object name, .record (Option.some kind) fs =>
    if name = kind then .ok () else misfit written (.record (Option.some kind) fs)
  | _, v => misfit written v

/-- Checking the fields of a record against those of a struct type. -/
def checkFields : List (String × Ty) → Option String → List (String × Value) →
    Except Mismatch Unit
  | [], _, _ => .ok ()
  | (name, t) :: rest, kind, fs =>
    match fs.lookup name with
    | Option.some v => do
      checkPart (.field name) (checkAs t t v)
      checkFields rest kind fs
    | Option.none => .error ⟨.field name, (Value.record kind fs).typeName, []⟩

end

/-- **Checking a value against a type.** -/
def check (t : Ty) (v : Value) : Except Mismatch Unit := checkAs t t v

/-! ## Inferring a type -/

mutual

/-- **The type of a value**: lists and maps go by their first entry, so empty ones have
none, nor have functions. -/
def infer : Value → Except RuntimeError Ty
  | .string _ => .ok .string
  | .int _ => .ok .int
  | .float _ => .ok .float
  | .bool _ => .ok .bool
  | .none => .ok .none
  | .list [] => .error (.cannotInferType "empty list is ambiguous")
  | .list (v :: _) => (infer v).map .list
  | .map [] => .error (.cannotInferType "empty map is ambiguous")
  | .map ((k, v) :: _) => (infer v).map (.map k.type)
  | .record (Option.some kind) _ => .ok (.object kind)
  | .record Option.none fields => (inferFields fields).map .struct
  | .callable _ _ => .error (.cannotInferType "functions have no inferable type")

/-- The types of the fields of a record. -/
def inferFields : List (String × Value) → Except RuntimeError (List (String × Ty))
  | [] => .ok []
  | (name, v) :: rest => do
    let t ← infer v
    let ts ← inferFields rest
    .ok ((name, t) :: ts)

end

end Value

end Ascription
