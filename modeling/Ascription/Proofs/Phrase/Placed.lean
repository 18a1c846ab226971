import Ascription.Proofs.Expr.Placed
import Ascription.Proofs.Phrase.Elaborate

/-!
# Proofs/Phrase/Placed — the second pass puts nodes in their places

A phrase keeps the spans of its first and last token where the tree needs them.  Whatever the second
pass makes of a phrase between two places is laid out between these, part by part, and where a rule
refuses the phrase there is nothing to show.
-/

namespace Ascription

namespace Phrase

open Ascription.Expr (LaidAll)

/-- **A phrase between two places**: what the second pass makes of it is laid out between them. -/
def Laid (r : Registry) (tokens : List Token) (lo hi : Position) (u : Phrase) : Prop :=
  ∀ ⦃ds e ds'⦄, elaborate r u ds = .ok (e, ds') → Expr.Laid tokens lo hi e

/-- **A list of phrases between two places**, `f` being the second pass over one and `expr` the
expression in what it makes. -/
def LaidEach (tokens : List Token) {υ α : Type}
    (f : List α → υ → Declarations → Except ParseError (α × Declarations)) (expr : α → Expr)
    (lo : Position) (us : List υ) (hi : Position) : Prop :=
  ∀ ⦃done ds as ds'⦄, each f done us ds = .ok (as, ds') →
    ∃ made, as = done ++ made ∧ LaidAll tokens lo (made.map expr) hi

section

variable {r : Registry} {tokens : List Token} {lo lo' mid mid' hi hi' : Position} {u v : Phrase}
  {s s' : Span}

theorem Laid.mono (h : Laid r tokens lo hi u) (hlo : lo' ≤ lo) (hhi : hi ≤ hi') :
    Laid r tokens lo' hi' u := fun _ _ _ he => (h he).mono hlo hhi

/-! ## Lists -/

section

variable {υ α : Type} {f : List α → υ → Declarations → Except ParseError (α × Declarations)}
  {expr : α → Expr} {x : υ} {xs : List υ}

theorem LaidEach.nil (h : lo ≤ hi) : LaidEach tokens f expr lo [] hi := by
  intro done ds as ds' has
  cases has
  exact ⟨[], (List.append_nil _).symm, .nil h⟩

theorem LaidEach.cons
    (hx : ∀ ⦃done ds a ds'⦄, f done x ds = .ok (a, ds') → Expr.Laid tokens lo mid (expr a))
    (hxs : LaidEach tokens f expr mid xs hi) : LaidEach tokens f expr lo (x :: xs) hi := by
  intro done ds as ds' has
  obtain ⟨a, ds₁, ha, hrest⟩ := each_cons_eq_ok.mp has
  obtain ⟨made, rfl, hmade⟩ := hxs hrest
  exact ⟨a :: made, by simp, .cons (hx ha) hmade⟩

theorem LaidEach.mono (h : LaidEach tokens f expr lo xs hi) (hlo : lo' ≤ lo) (hhi : hi ≤ hi') :
    LaidEach tokens f expr lo' xs hi' := by
  intro done ds as ds' has
  obtain ⟨made, rfl, hmade⟩ := h has
  exact ⟨made, rfl, hmade.mono hlo hhi⟩

end

/-- A list of expressions between two places. -/
abbrev LaidItems (r : Registry) (tokens : List Token) :
    Position → List Phrase → Position → Prop :=
  LaidEach tokens (fun _ => elaborate r) id

/-- The fields of a struct literal between two places. -/
abbrev LaidFields (r : Registry) (tokens : List Token) :
    Position → List (String × Span × Phrase) → Position → Prop :=
  LaidEach tokens (elaborateField r) Prod.snd

theorem laid_entry {name : String} (h : Laid r tokens lo hi u) : ∀ ⦃done ds field ds'⦄,
    elaborateField r done (name, s, u) ds = .ok (field, ds') →
      Expr.Laid tokens lo hi field.2 := by
  intro done ds field ds' hfield
  obtain ⟨-, e, _, he, -, rfl⟩ := elaborateField_eq_ok.mp hfield
  exact h he

/-! ## The forms -/

theorem laid_literal {value : Literal} (h : s.Stretch tokens) :
    Laid r tokens s.start s.stop (.literal s value) := by
  intro ds e ds' he
  obtain ⟨rfl, -⟩ := elaborate_literal.mp he
  exact Expr.Laid.node (e := .literal s value) h (.nil (le_of_lt h.nonempty))

theorem laid_reference {name : String} (h : s.Stretch tokens) :
    Laid r tokens s.start s.stop (.reference s name none) := by
  intro ds e ds' he
  obtain ⟨d, -, rfl, -⟩ := elaborate_reference.mp he
  exact Expr.Laid.node (e := .get s name d.type) h (.nil (le_of_lt h.nonempty))

theorem laid_annotated {name : String} {t : TypeExpr} (hs : s.Stretch tokens)
    (hs' : s'.Stretch tokens) (h : s.stop ≤ s'.start) :
    Laid r tokens s.start s'.stop (.reference (Span.merge s s') name (some t)) := by
  intro ds e ds' he
  obtain ⟨_, t', -, -, rfl, -⟩ := elaborate_annotated.mp he
  exact .merged hs hs' h rfl
    (.nil (le_of_lt (lt_trans hs.nonempty (lt_of_le_of_lt h hs'.nonempty))))

theorem laid_declaration {name : String} {t : TypeExpr} (h : Laid r tokens lo hi u) :
    Laid r tokens lo hi (.declaration name s t u) := by
  intro ds e ds' he
  obtain ⟨_, ds₁, -, -, he⟩ := elaborate_declaration.mp he
  exact h he

theorem laid_binary {op : BinaryOp} (hu : Laid r tokens lo mid u) (hv : Laid r tokens mid' hi v)
    (h : mid ≤ mid') : Laid r tokens lo hi (.binary op u v) := by
  intro ds e ds' he
  obtain ⟨a, ds₁, b, ha, hb, -, rfl⟩ := elaborate_binary.mp he
  replace ha := hu ha
  replace hb := hv hb
  have hle : a.span.stop ≤ b.span.start := le_trans ha.below (le_trans h hb.above)
  refine (Expr.Laid.merged ha.stretch hb.stretch hle rfl ?_).mono ha.above hb.below
  exact .cons ha.tight (.one (hb.tight.mono hle (le_refl _)))

theorem laid_negative (hs : s.Stretch tokens) (hu : Laid r tokens s.stop hi u) :
    Laid r tokens s.start hi (.negative s u) := by
  intro ds e ds' he
  obtain ⟨a, ha, -, rfl⟩ := elaborate_negative.mp he
  exact .behind hs (hu ha) rfl rfl

theorem laid_lambda {params : List String} (hs : s.Stretch tokens)
    (hu : Laid r tokens s.stop hi u) : Laid r tokens s.start hi (.lambda s params u) := by
  intro ds e ds' he
  obtain ⟨a, ha, rfl⟩ := elaborate_lambda.mp he
  exact .behind hs (hu ha) rfl rfl

theorem laid_call {name : String} {t : TypeExpr} {args : List Phrase}
    (hu : Laid r tokens lo mid u) (hargs : LaidItems r tokens mid args s.start)
    (hs : s.Stretch tokens) : Laid r tokens lo s.stop (.call u name t args s) := by
  intro ds e ds' he
  obtain ⟨a, ds₁, _, es, ha, -, hes, rfl⟩ := elaborate_call.mp he
  rw [elaborateAll_eq_each] at hes
  replace ha := hu ha
  obtain ⟨_, rfl, hes⟩ := hargs hes
  rw [List.map_id] at hes
  refine (Expr.Laid.merged ha.stretch hs (le_trans ha.below hes.le) rfl ?_).mono ha.above
    (le_refl _)
  exact .cons (ha.tight.mono (le_refl _) ha.below) (hes.mono (le_refl _) (le_of_lt hs.nonempty))

theorem laid_list {items : List Phrase} (hs : s.Stretch tokens) (hs' : s'.Stretch tokens)
    (hitems : LaidItems r tokens s.stop items s'.start) :
    Laid r tokens s.start s'.stop (.list (Span.merge s s') items) := by
  intro ds e ds' he
  obtain ⟨es, hes, -, rfl⟩ := elaborate_list.mp he
  rw [elaborateAll_eq_each] at hes
  obtain ⟨_, rfl, hes⟩ := hitems hes
  rw [List.map_id] at hes
  exact .merged hs hs' hes.le rfl (hes.mono (le_of_lt hs.nonempty) (le_of_lt hs'.nonempty))

theorem laid_struct {fields : List (String × Span × Phrase)} (hs : s.Stretch tokens)
    (hs' : s'.Stretch tokens) (hfields : LaidFields r tokens s.stop fields s'.start) :
    Laid r tokens s.start s'.stop (.struct (Span.merge s s') fields) := by
  intro ds e ds' he
  obtain ⟨fs, hfs, rfl⟩ := elaborate_struct.mp he
  rw [elaborateFields_eq_each] at hfs
  obtain ⟨_, rfl, hfs⟩ := hfields hfs
  exact .merged hs hs' hfs.le rfl (hfs.mono (le_of_lt hs.nonempty) (le_of_lt hs'.nonempty))

theorem laid_field {name : String} {ascribed : Option TypeExpr} (hu : Laid r tokens lo mid u)
    (hs : s'.Stretch tokens) (h : mid ≤ s'.start) :
    Laid r tokens lo s'.stop (.field u name s ascribed s') := by
  intro ds e ds' he
  obtain ⟨a, _, t, ha, -, -, rfl⟩ := elaborate_field.mp he
  replace ha := hu ha
  have hle : a.span.stop ≤ s'.start := le_trans ha.below h
  refine (Expr.Laid.merged ha.stretch hs hle rfl ?_).mono ha.above (le_refl _)
  exact .one (ha.tight.mono (le_refl _) (le_of_lt (lt_of_le_of_lt hle hs.nonempty)))

theorem laid_offset (hu : Laid r tokens lo mid u) (hv : Laid r tokens mid' s.start v)
    (h : mid ≤ mid') (hs : s.Stretch tokens) : Laid r tokens lo s.stop (.offset u v s) := by
  intro ds e ds' he
  obtain ⟨a, ds₁, b, _, ha, hb, -, rfl⟩ := elaborate_offset.mp he
  replace ha := hu ha
  replace hb := (hv hb).mono h (le_refl _)
  refine (Expr.Laid.merged ha.stretch hs (le_trans ha.below hb.le) rfl ?_).mono ha.above (le_refl _)
  exact .cons (ha.tight.mono (le_refl _) ha.below)
    (.one (hb.mono (le_refl _) (le_of_lt hs.nonempty)))

end

end Phrase

end Ascription
