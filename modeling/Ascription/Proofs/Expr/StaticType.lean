import Ascription.Proofs.Parser.Rules
import Ascription.Proofs.Phrase.Ruled

/-!
# Proofs/Expr/StaticType — which expressions have a static type

Lambdas have none; any other form that obeys its rule has one.
-/

namespace Ascription

open Phrase

namespace Expr

theorem form_eq_lambda {e : Expr} :
    e.form = .lambda ↔ ∃ span params body, e = .lambda span params body := by
  cases e with
  | lambda => exact ⟨fun _ => ⟨_, _, _, rfl⟩, fun _ => rfl⟩
  | binary span op => cases op <;> simp [form, BinaryOp.form]
  | _ => simp [form]

theorem staticType_eq_ok {e : Expr} {t : Ty} :
    Parser.staticType e = .ok t ↔ e.type? = some t := by
  rw [Parser.staticType]
  cases e.type? <;> simp

theorem typed_eq_ok {e : Expr} {x : Typed} :
    typed e = .ok x ↔ e.type? = some x.type ∧ x.span = e.span := by
  obtain ⟨t, span⟩ := x
  rw [typed, Except.bind_eq_ok]
  constructor
  · rintro ⟨t', ht, h⟩
    cases h
    exact ⟨staticType_eq_ok.mp ht, rfl⟩
  · rintro ⟨ht, rfl⟩
    exact ⟨t, staticType_eq_ok.mpr ht, rfl⟩

/-- Each field of a struct literal brings its name and its type. -/
theorem fieldTypes?_eq_some {fs : List (String × Expr)} {ts : List (String × Ty)}
    (h : fieldTypes? fs = some ts) :
    ts.map Prod.fst = fs.map Prod.fst ∧
      ∀ p ∈ ts, ∃ f ∈ fs, f.1 = p.1 ∧ f.2.type? = some p.2 := by
  induction fs generalizing ts with
  | nil =>
    cases h
    exact ⟨rfl, nofun⟩
  | cons f fs ih =>
    obtain ⟨name, e⟩ := f
    rw [fieldTypes?] at h
    split at h
    case h_1 t ts' ht hts =>
      cases h
      obtain ⟨hnames, hmem⟩ := ih hts
      refine ⟨by rw [List.map_cons, List.map_cons, hnames], fun p hp => ?_⟩
      obtain rfl | hp := List.mem_cons.mp hp
      · exact ⟨(name, e), List.mem_cons_self, rfl, ht⟩
      · obtain ⟨f, hf, hname, htype⟩ := hmem p hp
        exact ⟨f, List.mem_cons_of_mem _ hf, hname, htype⟩
    case h_2 => cases h

theorem fieldTypes?_isSome {fs : List (String × Expr)}
    (h : ∀ f ∈ fs, ∃ t, typed f.2 = .ok t) : ∃ ts, fieldTypes? fs = some ts := by
  induction fs with
  | nil => exact ⟨[], rfl⟩
  | cons f fs ih =>
    obtain ⟨name, e⟩ := f
    obtain ⟨x, hx⟩ := h _ List.mem_cons_self
    obtain ⟨ts, hts⟩ := ih fun f hf => h f (List.mem_cons_of_mem _ hf)
    exact ⟨(name, x.type) :: ts, by rw [fieldTypes?, (typed_eq_ok.mp hx).1, hts]⟩

theorem elementRule_eq_ok {first : Ty} {es : List Expr} :
    elementRule first es = .ok () ↔
      ∀ e ∈ es, ∃ x, typed e = .ok x ∧ Rule.listElement first x = .ok () := by
  induction es with
  | nil => exact ⟨fun _ => nofun, fun _ => rfl⟩
  | cons e es ih =>
    rw [Parser.elementRule_cons_eq_ok, List.forall_mem_cons, ← ih]
    exact ⟨fun ⟨x, hx, h, hes⟩ => ⟨⟨x, hx, h⟩, hes⟩, fun ⟨⟨x, hx, h⟩, hes⟩ => ⟨x, hx, h, hes⟩⟩

/-- **Every form but a lambda has a static type**, once its rule accepts. -/
theorem type?_isSome {T : Ty → Prop} {e : Expr} (h : e.Ruled T) (hform : e.form ≠ .lambda) :
    ∃ t, e.type? = some t := by
  cases e with
  | get | literal | call | field => exact ⟨_, rfl⟩
  | lambda => exact absurd rfl hform
  | binary span op left right =>
    cases op with
    | eq | or | gt => exact ⟨.bool, rfl⟩
    | subtract =>
      obtain ⟨l, r, hl, -⟩ := Parser.joinRule_eq_ok.mp h
      exact ⟨l.type, (typed_eq_ok.mp hl).1⟩
  | negative span operand =>
    obtain ⟨x, hx, -⟩ := Parser.negationRule_eq_ok.mp h
    exact ⟨x.type, (typed_eq_ok.mp hx).1⟩
  | list span items =>
    cases items with
    | nil => exact ⟨_, rfl⟩
    | cons first others =>
      obtain ⟨t, ht, -⟩ := Parser.listRule_cons_eq_ok.mp h
      exact ⟨.list t, by rw [type?, staticType_eq_ok.mp ht]; rfl⟩
  | struct span fields =>
    obtain ⟨ts, hts⟩ := fieldTypes?_isSome h.2
    exact ⟨.record ts, by rw [type?, hts]; rfl⟩
  | offset span target key =>
    obtain ⟨t, hr⟩ := h
    obtain ⟨x, _, hx, -⟩ := Parser.offsetRule_eq_ok.mp hr
    exact ⟨_, by rw [type?, (typed_eq_ok.mp hx).1]; rfl⟩

/-- Lambdas are parts of calls and of lambdas only. -/
theorem Ruled.part_ne_lambda {T : Ty → Prop} {e : Expr} (h : e.Ruled T) (hcall : e.form ≠ .call)
    (hlambda : e.form ≠ .lambda) : ∀ c ∈ e.children, c.form ≠ .lambda := by
  have hstatic : ∀ {c t}, Parser.staticType c = .ok t → c.form ≠ .lambda := by
    intro c t hc
    have ht := staticType_eq_ok.mp hc
    intro hform
    obtain ⟨span, params, body, rfl⟩ := form_eq_lambda.mp hform
    cases ht
  have htyped : ∀ {c x}, typed c = .ok x → c.form ≠ .lambda := fun hx =>
    hstatic (staticType_eq_ok.mpr (typed_eq_ok.mp hx).1)
  cases e with
  | get | literal => exact fun _ hc => nomatch hc
  | call => exact absurd rfl hcall
  | lambda => exact absurd rfl hlambda
  | binary span op left right =>
    obtain ⟨x, y, hx, hy, -⟩ := Parser.joinRule_eq_ok.mp h
    exact List.forall_mem_cons.mpr ⟨htyped hx, List.forall_mem_cons.mpr ⟨htyped hy, nofun⟩⟩
  | negative span operand =>
    obtain ⟨x, hx, -⟩ := Parser.negationRule_eq_ok.mp h
    exact List.forall_mem_cons.mpr ⟨htyped hx, nofun⟩
  | list span items =>
    cases items with
    | nil => exact fun _ hc => nomatch hc
    | cons first others =>
      obtain ⟨t, ht, helements⟩ := Parser.listRule_cons_eq_ok.mp h
      refine List.forall_mem_cons.mpr ⟨hstatic ht, fun c hc => ?_⟩
      obtain ⟨x, hx, -⟩ := elementRule_eq_ok.mp helements c hc
      exact htyped hx
  | struct span fields =>
    intro c hc
    obtain ⟨f, hf, rfl⟩ := List.mem_map.mp hc
    obtain ⟨x, hx⟩ := h.2 f hf
    exact htyped hx
  | field span target name type =>
    obtain ⟨ascribed, at', -, hrule⟩ := h
    obtain ⟨t, ht, -⟩ := Parser.fieldRule_eq_ok.mp hrule
    exact List.forall_mem_cons.mpr ⟨hstatic ht, nofun⟩
  | offset span target key =>
    obtain ⟨t, hrule⟩ := h
    obtain ⟨x, y, hx, hy, -⟩ := Parser.offsetRule_eq_ok.mp hrule
    exact List.forall_mem_cons.mpr ⟨htyped hx, List.forall_mem_cons.mpr ⟨htyped hy, nofun⟩⟩

end Expr

end Ascription
