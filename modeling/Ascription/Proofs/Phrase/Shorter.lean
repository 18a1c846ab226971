import Ascription.Proofs.Phrase.Grammar

/-!
# Proofs/Phrase/Shorter — what a production takes

Everything but an empty list, and an end of steps or operators, takes at least one token.
-/

namespace Ascription

namespace Place

/-- How many tokens are to come. -/
def size (c : Place) : Nat := c.tokens.length

@[simp] theorem size_mk {p ts} : size ⟨p, ts⟩ = ts.length := rfl

end Place

namespace Grammar

theorem Name.shorter {c x c'} (h : Name c x c') : c'.size < c.size := by
  cases h
  simp

/-- A list is never longer than the tokens it is read from, if its items are shorter. -/
theorem Listed.shorter {α : Type} {Item : Place → α → Place → Prop}
    (hitem : ∀ {c x c'}, Item c x c' → c'.size < c.size) {c xs c'} (h : Listed Item c xs c') :
    c'.size ≤ c.size := by
  induction h with
  | none => exact Nat.le_refl _
  | one item => exact Nat.le_of_lt (hitem item)
  | more item _ ih =>
    have h := hitem item
    simp at h ih ⊢
    omega

mutual

theorem TypeName.shorter : ∀ {c t c'}, TypeName c t c' → c'.size < c.size
  | _, _, _, .name _ _ => by simp
  | _, _, _, .applied list => by
      have h := list.shorter_types
      simp at h ⊢
      omega
  | _, _, _, .func list returns => by
      have h := list.shorter_types
      have h' := returns.shorter
      simp at h h' ⊢
      omega
  | _, _, _, .struct list => by
      have h := list.shorter_fields
      simp at h ⊢
      omega

theorem TypeField.shorter : ∀ {c x c'}, TypeField c x c' → c'.size < c.size
  | _, _, _, .field type => by
      have h := type.shorter
      simp at h ⊢
      omega

theorem Listed.shorter_types : ∀ {c ts c'}, Listed TypeName c ts c' → c'.size ≤ c.size
  | _, _, _, .none => Nat.le_refl _
  | _, _, _, .one item => Nat.le_of_lt item.shorter
  | _, _, _, .more item rest => by
      have h := item.shorter
      have h' := rest.shorter_types
      simp at h h' ⊢
      omega

theorem Listed.shorter_fields : ∀ {c xs c'}, Listed TypeField c xs c' → c'.size ≤ c.size
  | _, _, _, .none => Nat.le_refl _
  | _, _, _, .one item => Nat.le_of_lt item.shorter
  | _, _, _, .more item rest => by
      have h := item.shorter
      have h' := rest.shorter_fields
      simp at h h' ⊢
      omega

end

mutual

theorem Expression.shorter : ∀ {c u c'}, Expression c u c' → c'.size < c.size
  | _, _, _, .declaration type body => by
      have h := type.shorter
      have h' := body.shorter
      simp at h h' ⊢
      omega
  | _, _, _, .operation _ first others =>
      Nat.lt_of_le_of_lt others.shorter first.shorter
termination_by structural _ _ _ h => h

theorem Operators.shorter : ∀ {left c u c'}, Operators left c u c' → c'.size ≤ c.size
  | _, _, _, _, .nil => Nat.le_refl _
  | _, _, _, _, .cons _ operand others => by
      have h := operand.shorter
      have h' := others.shorter
      simp at h h' ⊢
      omega
termination_by structural _ _ _ _ h => h

theorem Operand.shorter : ∀ {c u c'}, Operand c u c' → c'.size < c.size
  | _, _, _, .negation operand => by
      have h := operand.shorter
      simp at h ⊢
      omega
  | _, _, _, .steps primary steps => Nat.lt_of_le_of_lt steps.shorter primary.shorter
termination_by structural _ _ _ h => h

theorem Steps.shorter : ∀ {target c u c'}, Steps target c u c' → c'.size ≤ c.size
  | _, _, _, _, .nil => Nat.le_refl _
  | _, _, _, _, .cons step others => Nat.le_of_lt (Nat.lt_of_le_of_lt others.shorter step.shorter)
termination_by structural _ _ _ _ h => h

theorem Step.shorter : ∀ {target c u c'}, Step target c u c' → c'.size < c.size
  | _, _, _, _, .field => by
      rw [Place.size_mk, Place.size_mk, List.length_cons, List.length_cons]
      omega
  | _, _, _, _, .annotated type => by
      have h := type.shorter
      simp at h ⊢
      omega
  | _, _, _, _, .call type list => by
      have h := type.shorter
      have h' := list.shorter_items
      simp at h h' ⊢
      omega
  | _, _, _, _, .offset index => by
      have h := index.shorter
      simp at h ⊢
      omega
termination_by structural _ _ _ _ h => h

theorem Primary.shorter : ∀ {c u c'}, Primary c u c' → c'.size < c.size
  | _, _, _, .int | _, _, _, .float | _, _, _, .string | _, _, _, .name => by simp
  | _, _, _, .annotated type => by
      have h := type.shorter
      simp at h ⊢
      omega
  | _, _, _, .lambda list body _ => by
      have h := list.shorter Name.shorter
      have h' := body.shorter
      simp at h h' ⊢
      omega
  | _, _, _, .thunk body _ => by
      have h := body.shorter
      simp at h ⊢
      omega
  | _, _, _, .parens inner => by
      have h := inner.shorter
      simp at h ⊢
      omega
  | _, _, _, .list list => by
      have h := list.shorter_items
      simp at h ⊢
      omega
  | _, _, _, .struct list => by
      have h := list.shorter_entries
      simp at h ⊢
      omega
termination_by structural _ _ _ h => h

theorem Field.shorter : ∀ {c x c'}, Field c x c' → c'.size < c.size
  | _, _, _, .field value => by
      have h := value.shorter
      simp at h ⊢
      omega
termination_by structural _ _ _ h => h

theorem Listed.shorter_items : ∀ {c us c'}, Listed Expression c us c' → c'.size ≤ c.size
  | _, _, _, .none => Nat.le_refl _
  | _, _, _, .one item => Nat.le_of_lt item.shorter
  | _, _, _, .more item rest => by
      have h := item.shorter
      have h' := rest.shorter_items
      simp at h h' ⊢
      omega
termination_by structural _ _ _ h => h

theorem Listed.shorter_entries : ∀ {c xs c'}, Listed Field c xs c' → c'.size ≤ c.size
  | _, _, _, .none => Nat.le_refl _
  | _, _, _, .one item => Nat.le_of_lt item.shorter
  | _, _, _, .more item rest => by
      have h := item.shorter
      have h' := rest.shorter_entries
      simp at h h' ⊢
      omega
termination_by structural _ _ _ h => h

end

end Grammar

end Ascription
