import Ascription.Proofs.Except
import Ascription.Proofs.Phrase

/-!
# Proofs/Phrase/Elaborate — what the second pass does with each form

One equivalence for each form of phrase: the second pass succeeds on it exactly when it succeeds on
the parts, one after the other, and the rule of the form accepts.
-/

namespace Ascription

namespace Phrase

variable {r : Registry} {ds ds' : Declarations} {x : Expr}

@[simp] theorem ruled_eq_ok {α : Type} {verdict : Except TypeError α} {a : α} :
    ruled verdict = .ok a ↔ verdict = .ok a := Except.mapError_eq_ok

theorem elaborate_declaration {name : String} {span : Span} {type : TypeExpr} {body : Phrase} :
    elaborate r (.declaration name span type body) ds = .ok (x, ds') ↔
      ∃ t ds₁, r.resolve type = .ok t ∧ ds.declare name t span = .ok ds₁ ∧
        elaborate r body ds₁ = .ok (x, ds') := by
  simp [Except.bind_eq_ok]

theorem elaborate_reference {span : Span} {name : String} :
    elaborate r (.reference span name none) ds = .ok (x, ds') ↔
      ∃ d, ds.find? name = some d ∧ x = .get span name d.type ∧ ds' = ds := by
  rw [elaborate]
  cases ds.find? name <;> simp [eq_comm]

theorem elaborate_annotated {span : Span} {name : String} {ascribed : TypeExpr} :
    elaborate r (.reference span name (some ascribed)) ds = .ok (x, ds') ↔
      ∃ t t', r.resolve ascribed = .ok t ∧ ds.checkAnnotated name t span = .ok t' ∧
        x = .get span name t' ∧ ds' = ds := by
  simp [Except.bind_eq_ok, pure, Except.pure]
  grind

theorem elaborate_literal {span : Span} {value : Literal} :
    elaborate r (.literal span value) ds = .ok (x, ds') ↔ x = .literal span value ∧ ds' = ds := by
  simp [eq_comm]

theorem elaborate_binary {op : BinaryOp} {left right : Phrase} :
    elaborate r (.binary op left right) ds = .ok (x, ds') ↔
      ∃ a ds₁ b, elaborate r left ds = .ok (a, ds₁) ∧ elaborate r right ds₁ = .ok (b, ds') ∧
        joinRule op a b = .ok () ∧ x = .binary (Span.merge a.span b.span) op a b := by
  simp [Except.bind_eq_ok, pure, Except.pure]
  grind

theorem elaborate_negative {start : Span} {operand : Phrase} :
    elaborate r (.negative start operand) ds = .ok (x, ds') ↔
      ∃ a, elaborate r operand ds = .ok (a, ds') ∧ negationRule a = .ok () ∧
        x = .negative (Span.merge start a.span) a := by
  simp [Except.bind_eq_ok, pure, Except.pure]
  grind

theorem elaborate_call {target : Phrase} {name : String} {result : TypeExpr} {args : List Phrase}
    {stop : Span} :
    elaborate r (.call target name result args stop) ds = .ok (x, ds') ↔
      ∃ a ds₁ t es, elaborate r target ds = .ok (a, ds₁) ∧ r.resolve result = .ok t ∧
        elaborateAll r [] args ds₁ = .ok (es, ds') ∧
        x = .call (Span.merge a.span stop) a name t es := by
  simp [Except.bind_eq_ok, pure, Except.pure]
  grind

theorem elaborate_lambda {start : Span} {params : List String} {body : Phrase} :
    elaborate r (.lambda start params body) ds = .ok (x, ds') ↔
      ∃ a, elaborate r body ds = .ok (a, ds') ∧
        x = .lambda (Span.merge start a.span) params a := by
  simp [Except.bind_eq_ok, pure, Except.pure]
  grind

theorem elaborate_list {span : Span} {items : List Phrase} :
    elaborate r (.list span items) ds = .ok (x, ds') ↔
      ∃ es, elaborateAll r [] items ds = .ok (es, ds') ∧ listRule es = .ok () ∧
        x = .list span es := by
  simp [Except.bind_eq_ok, pure, Except.pure]
  grind

theorem elaborate_struct {span : Span} {fields : List (String × Span × Phrase)} :
    elaborate r (.struct span fields) ds = .ok (x, ds') ↔
      ∃ fs, elaborateFields r [] fields ds = .ok (fs, ds') ∧ x = .struct span fs := by
  simp [Except.bind_eq_ok, pure, Except.pure]
  grind

theorem elaborate_field {target : Phrase} {name : String} {span stop : Span}
    {ascribed : Option TypeExpr} :
    elaborate r (.field target name span ascribed stop) ds = .ok (x, ds') ↔
      ∃ a t t', elaborate r target ds = .ok (a, ds') ∧ annotated r ascribed = .ok t ∧
        fieldRule a name t span = .ok t' ∧ x = .field (Span.merge a.span stop) a name t' := by
  simp [Except.bind_eq_ok, pure, Except.pure]
  grind

theorem elaborate_offset {target key : Phrase} {stop : Span} :
    elaborate r (.offset target key stop) ds = .ok (x, ds') ↔
      ∃ a ds₁ k t, elaborate r target ds = .ok (a, ds₁) ∧ elaborate r key ds₁ = .ok (k, ds') ∧
        offsetRule a k = .ok t ∧ x = .offset (Span.merge a.span stop) a k := by
  simp [Except.bind_eq_ok, pure, Except.pure]
  grind

/-! ## Lists -/

/-- **A second pass over a list**, behind the items already done. -/
def each {υ α : Type} (f : List α → υ → Declarations → Except ParseError (α × Declarations))
    (done : List α) : List υ → Declarations → Except ParseError (List α × Declarations)
  | [], ds => .ok (done, ds)
  | u :: us, ds => do
    let (a, ds) ← f done u ds
    each f (done ++ [a]) us ds

theorem each_cons_eq_ok {υ α : Type}
    {f : List α → υ → Declarations → Except ParseError (α × Declarations)} {done as : List α}
    {u : υ} {us : List υ} :
    each f done (u :: us) ds = .ok (as, ds') ↔
      ∃ a ds₁, f done u ds = .ok (a, ds₁) ∧ each f (done ++ [a]) us ds₁ = .ok (as, ds') := by
  rw [each, Except.bind_eq_ok]
  constructor
  · rintro ⟨⟨a, ds₁⟩, h, h'⟩
    exact ⟨a, ds₁, h, h'⟩
  · rintro ⟨a, ds₁, h, h'⟩
    exact ⟨(a, ds₁), h, h'⟩

/-- One field of a struct literal behind those already done. -/
def elaborateField (r : Registry) (done : List (String × Expr)) :
    String × Span × Phrase → Declarations → Except ParseError ((String × Expr) × Declarations)
  | (name, span, u), ds =>
    if Entries.contains done name then ruled (.error (.duplicateField name span))
    else do
      let (e, ds) ← elaborate r u ds
      let _ ← ruled (typed e)
      return ((name, e), ds)

theorem elaborateField_eq_ok {done : List (String × Expr)} {name : String} {span : Span}
    {u : Phrase} {field : String × Expr} :
    elaborateField r done (name, span, u) ds = .ok (field, ds') ↔
      Entries.contains done name = false ∧
        ∃ e t, elaborate r u ds = .ok (e, ds') ∧ typed e = .ok t ∧ field = (name, e) := by
  cases h : Entries.contains done name with
  | true => simp [elaborateField, h]
  | false =>
    simp [elaborateField, h, Except.bind_eq_ok, pure, Except.pure]
    grind

theorem elaborateAll_eq_each {us : List Phrase} {done : List Expr} :
    elaborateAll r done us ds = each (fun _ => elaborate r) done us ds := by
  induction us generalizing done ds with
  | nil => rfl
  | cons u us ih => simp only [elaborateAll, each, ih]

theorem elaborateFields_eq_each {fields : List (String × Span × Phrase)}
    {done : List (String × Expr)} :
    elaborateFields r done fields ds = each (elaborateField r) done fields ds := by
  induction fields generalizing done ds with
  | nil => rfl
  | cons field fields ih =>
    obtain ⟨name, span, u⟩ := field
    rw [elaborateFields, each, elaborateField]
    split
    · rfl
    · simp only [ih]
      cases elaborate r u ds with
      | error => rfl
      | ok x =>
        change (ruled (typed x.1) >>= _) = ((ruled (typed x.1) >>= _) >>= _)
        cases ruled (typed x.1) <;> rfl

end Phrase

end Ascription
