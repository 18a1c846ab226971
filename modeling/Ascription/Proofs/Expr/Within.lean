import Ascription.Expr

/-!
# Proofs/Expr/Within — an expression and the expressions inside it

Every form lists its parts (`Expr.children`), so what holds of an expression once it holds of its
parts holds of all.
-/

namespace Ascription

namespace Expr

/-- A part is smaller. -/
theorem sizeOf_lt_of_mem_children {c e : Expr} (h : c ∈ e.children) : sizeOf c < sizeOf e := by
  cases e with
  | get | literal => cases h
  | binary | negative | lambda | field | offset =>
    simp [children] at h
    grind
  | call span target name result args =>
    obtain rfl | h := List.mem_cons.mp h
    · simp
      omega
    · have h := List.sizeOf_lt_of_mem h
      simp
      omega
  | list span items =>
    have h : sizeOf c < sizeOf items := List.sizeOf_lt_of_mem h
    simp
    omega
  | struct span fields =>
    obtain ⟨⟨name, e⟩, hf, rfl⟩ := List.mem_map.mp h
    have h := List.sizeOf_lt_of_mem hf
    simp at h ⊢
    omega

/-- **Induction over the parts of an expression.** -/
theorem children_induction {P : Expr → Prop} (h : ∀ e, (∀ c ∈ e.children, P c) → P e) (e : Expr) :
    P e :=
  h e fun c _ => children_induction h c
termination_by sizeOf e
decreasing_by exact sizeOf_lt_of_mem_children ‹_›

/-- **Standing within an expression**, lambda bodies included. -/
inductive Within : Expr → Expr → Prop
  | refl {e} : Within e e
  | part {n c e} (mem : c ∈ e.children) (within : Within n c) : Within n e

theorem Within.trans {a b c : Expr} (h : Within a b) (h' : Within b c) : Within a c := by
  induction h' with
  | refl => exact h
  | part mem _ ih => exact .part mem ih

/-- **Induction over all that stands inside an expression.** -/
theorem within_induction {P : Expr → Prop}
    (h : ∀ e, (∀ c ∈ e.children, ∀ n, Within n c → P n) → P e) (e : Expr) : P e := by
  suffices hall : ∀ n, Within n e → P n from hall e .refl
  induction e using children_induction with
  | h e ih =>
  intro n hn
  cases hn with
  | refl => exact h e ih
  | part mem within => exact ih _ mem n within

/-- What holds of an expression and of all within it. -/
def Everywhere (Q : Expr → Prop) (e : Expr) : Prop := ∀ n, Within n e → Q n

namespace Everywhere

variable {Q Q' : Expr → Prop} {e : Expr}

theorem here (h : Everywhere Q e) : Q e := h e .refl

theorem part (h : Everywhere Q e) {c : Expr} (hc : c ∈ e.children) : Everywhere Q c :=
  fun n hn => h n (.part hc hn)

theorem within (h : Everywhere Q e) {n : Expr} (hn : Within n e) : Everywhere Q n :=
  fun m hm => h m (hm.trans hn)

theorem node (h : Q e) (hc : ∀ c ∈ e.children, Everywhere Q c) : Everywhere Q e := by
  intro n hn
  cases hn with
  | refl => exact h
  | part mem within => exact hc _ mem n within

end Everywhere

end Expr

end Ascription
