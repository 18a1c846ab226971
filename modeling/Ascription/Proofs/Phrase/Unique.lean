import Ascription.Proofs.Phrase.Grammar

/-!
# Proofs/Phrase/Unique — no token list is two phrases

Every production shows in its first tokens, and what may stand behind an expression cannot go on
with it: the end of the text, a comma or a closing mark.  So two derivations from one place, both
ended by such a token, agree on the phrase and on the place they reach.
-/

namespace Ascription

namespace Place

/-- May the token that is next, or the lack of one, stand behind an expression? -/
def atEnd (c : Place) : Bool :=
  match c.next with
  | none | some (.punct .comma) | some (.punct .rightParen) | some (.punct .rightBracket)
  | some (.punct .rightBrace) => true
  | _ => false

/-- …behind an operand? -/
def behindOperand (c : Place) : Bool := c.atEnd || c.atOperator

/-- …behind a primary? -/
def behindPrimary (c : Place) : Bool := c.behindOperand || c.atStep

theorem behindOperand_of_atEnd {c : Place} (h : c.atEnd = true) : c.behindOperand = true := by
  rw [behindOperand, h, Bool.true_or]

theorem behindPrimary_of_behindOperand {c : Place} (h : c.behindOperand = true) :
    c.behindPrimary = true := by
  rw [behindPrimary, h, Bool.true_or]

@[simp] theorem next_cons {p s k ts} : next ⟨p, ⟨k, s⟩ :: ts⟩ = some k := rfl

/-- **What goes on is no end.** -/
theorem atOperator_of_atEnd {c : Place} (h : c.atEnd = true) : c.atOperator = false := by
  rw [atEnd] at h
  split at h <;> simp_all [atOperator, Parser.operator?]

theorem atStep_of_behindOperand {c : Place} (h : c.behindOperand = true) : c.atStep = false := by
  rw [Bool.eq_false_iff]
  intro hc
  obtain hc | hc : c.next = some (.punct .dot) ∨ c.next = some (.punct .leftBracket) := by
    simpa [atStep] using hc
  all_goals simp [behindOperand, atEnd, atOperator, Parser.operator?, hc] at h

end Place

namespace Grammar

/-! ## Lists -/

/-- Is the mark that closes a list, or a comma, next? -/
def atMark (close : Punct) (c : Place) : Prop :=
  c.next = some (.punct close) ∨ c.next = some (.punct .comma)

/-- What is read at `c` is pinned, if a token in `Follow` stands behind it. -/
def Pinned {α : Type} (Item : Place → α → Place → Prop) (Follow : Place → Prop) (c : Place)
    (x : α) (c' : Place) : Prop :=
  Follow c' → ∀ y c'', Item c y c'' → Follow c'' → x = y ∧ c' = c''

/-- **A list of pinned items is pinned** by its closing mark, if no item starts with that mark. -/
theorem Listed.unique {α : Type} {Item : Place → α → Place → Prop} {close : Punct}
    (hclose : close ≠ .comma)
    (hopen : ∀ {c x c'}, Item c x c' → c.next ≠ some (.punct close))
    {c c₁ c₂ : Place} {xs ys : List α}
    (h : Listed (fun c x c' => Item c x c' ∧ Pinned Item (atMark close) c x c') c xs c₁)
    (h₁ : c₁.next = some (.punct close)) (h' : Listed Item c ys c₂)
    (h₂ : c₂.next = some (.punct close)) : xs = ys ∧ c₁ = c₂ := by
  induction h generalizing ys c₂ with
  | none =>
    cases h' with
    | none => exact ⟨rfl, rfl⟩
    | one item => exact absurd h₁ (hopen item)
    | more item => exact absurd h₁ (hopen item)
  | one item =>
    cases h' with
    | none => exact absurd h₂ (hopen item.1)
    | one item' =>
      obtain ⟨rfl, rfl⟩ := item.2 (.inl h₁) _ _ item' (.inl h₂)
      exact ⟨rfl, rfl⟩
    | more item' =>
      obtain ⟨-, rfl⟩ := item.2 (.inl h₁) _ _ item' (.inr rfl)
      cases h₁
      exact absurd rfl hclose
  | more item _ ih =>
    cases h' with
    | none => exact absurd h₂ (hopen item.1)
    | one item' =>
      obtain ⟨-, rfl⟩ := item.2 (.inr rfl) _ _ item' (.inl h₂)
      cases h₂
      exact absurd rfl hclose
    | more item' rest' =>
      obtain ⟨rfl, h⟩ := item.2 (.inr rfl) _ _ item' (.inr rfl)
      cases h
      obtain ⟨rfl, rfl⟩ := ih h₁ rest' h₂
      exact ⟨rfl, rfl⟩

/-- A list of one sort of items is one of another that takes them all. -/
theorem Listed.imp {α : Type} {P Q : Place → α → Place → Prop} {c c' : Place} {xs : List α}
    (h : Listed P c xs c') (f : ∀ c x c', P c x c' → Q c x c') : Listed Q c xs c' := by
  induction h with
  | none => exact .none
  | one item => exact .one (f _ _ _ item)
  | more item _ ih => exact .more (f _ _ _ item) ih

theorem Name.unique {c x c₁ y c₂} (h : Name c x c₁) (h' : Name c y c₂) : x = y ∧ c₁ = c₂ := by
  cases h
  cases h'
  exact ⟨rfl, rfl⟩

theorem Name.opens {c x c'} (h : Name c x c') (q : Punct) : c.next ≠ some (.punct q) := by
  cases h
  simp

theorem Listed.unique_names {c c₁ c₂ xs ys} (h : Listed Name c xs c₁)
    (h₁ : c₁.next = some (.punct .pipe)) (h' : Listed Name c ys c₂)
    (h₂ : c₂.next = some (.punct .pipe)) : xs = ys ∧ c₁ = c₂ :=
  Listed.unique (by decide) (fun h => h.opens _)
    (h.imp fun _ _ _ item => ⟨item, fun _ _ _ item' _ => item.unique item'⟩) h₁ h' h₂

/-! ## Types -/

theorem TypeName.opens {c t c'} (h : TypeName c t c') {q : Punct} (hq : q ≠ .leftBrace) :
    c.next ≠ some (.punct q) := by
  cases h <;> simp [hq.symm]

theorem TypeField.opens {c x c'} (h : TypeField c x c') (q : Punct) :
    c.next ≠ some (.punct q) := by
  cases h
  simp

mutual

/-- **A type is pinned** whatever stands behind it. -/
theorem TypeName.unique : ∀ {c t c₁ t' c₂}, TypeName c t c₁ → TypeName c t' c₂ →
    t = t' ∧ c₁ = c₂
  | _, _, _, _, _, .name less paren, h => by
      cases h with
      | name => exact ⟨rfl, rfl⟩
      | applied => exact absurd rfl less
      | func => exact absurd rfl (paren rfl)
  | _, _, _, _, _, .applied list, h => by
      cases h with
      | name less => exact absurd rfl less
      | applied list' =>
        obtain ⟨rfl, h⟩ := Listed.unique (by decide) (fun h => h.opens (by decide))
          (list.unique_types .greater) rfl list' rfl
        cases h
        exact ⟨rfl, rfl⟩
  | _, _, _, _, _, .func list returns, h => by
      cases h with
      | name _ paren => exact absurd rfl (paren rfl)
      | func list' returns' =>
        obtain ⟨rfl, h⟩ := Listed.unique (by decide) (fun h => h.opens (by decide))
          (list.unique_types .rightParen) rfl list' rfl
        cases h
        obtain ⟨rfl, rfl⟩ := returns.unique returns'
        exact ⟨rfl, rfl⟩
  | _, _, _, _, _, .struct list, h => by
      cases h with
      | struct list' =>
        obtain ⟨rfl, h⟩ := Listed.unique (by decide) (fun h => h.opens _)
          list.unique_fields rfl list' rfl
        cases h
        exact ⟨rfl, rfl⟩

theorem TypeField.unique : ∀ {c x c₁ y c₂}, TypeField c x c₁ → TypeField c y c₂ →
    x = y ∧ c₁ = c₂
  | _, _, _, _, _, .field type, h => by
      cases h with
      | field type' =>
        obtain ⟨rfl, rfl⟩ := type.unique type'
        exact ⟨rfl, rfl⟩

theorem Listed.unique_types : ∀ {c ts c₁}, Listed TypeName c ts c₁ → ∀ close,
    Listed (fun c t c' => TypeName c t c' ∧ Pinned TypeName (atMark close) c t c') c ts c₁
  | _, _, _, .none, _ => .none
  | _, _, _, .one item, _ => .one ⟨item, fun _ _ _ item' _ => item.unique item'⟩
  | _, _, _, .more item rest, close =>
      .more ⟨item, fun _ _ _ item' _ => item.unique item'⟩ (rest.unique_types close)

theorem Listed.unique_fields : ∀ {c xs c₁}, Listed TypeField c xs c₁ →
    Listed (fun c x c' => TypeField c x c' ∧ Pinned TypeField (atMark .rightBrace) c x c') c xs c₁
  | _, _, _, .none => .none
  | _, _, _, .one item => .one ⟨item, fun _ _ _ item' _ => item.unique item'⟩
  | _, _, _, .more item rest =>
      .more ⟨item, fun _ _ _ item' _ => item.unique item'⟩ rest.unique_fields

end

/-! ## Expressions -/

/-- The marks an expression can start with. -/
def opens (q : Punct) : Bool :=
  q == .minus || q == .pipe || q == .doublePipe || q == .leftParen || q == .leftBracket ||
    q == .leftBrace

theorem Primary.opens {c u c' q} (h : Primary c u c') (hq : c.next = some (.punct q)) :
    opens q = true := by
  cases h <;> cases hq <;> rfl

theorem Operand.opens {c u c' q} (h : Operand c u c') (hq : c.next = some (.punct q)) :
    opens q = true := by
  cases h with
  | negation => cases hq; rfl
  | steps primary => exact primary.opens hq

theorem Expression.opens {c u c'} (h : Expression c u c') {q : Punct} (hq : opens q = false) :
    c.next ≠ some (.punct q) := by
  intro hc
  cases h with
  | declaration => cases hc
  | operation _ first => rw [first.opens hc] at hq; cases hq

theorem Field.opens {c x c'} (h : Field c x c') (q : Punct) : c.next ≠ some (.punct q) := by
  cases h
  simp

theorem Primary.next_ne_minus {c u c'} (h : Primary c u c') :
    c.next ≠ some (.punct .minus) := by
  cases h <;> simp

theorem Steps.nil_of_not_atStep {u c v c'} (h : Steps u c v c') (hc : c.atStep = false) :
    u = v ∧ c = c' := by
  cases h with
  | nil => exact ⟨rfl, rfl⟩
  | cons step => cases step <;> simp [Place.atStep] at hc

theorem Operators.nil_of_not_atOperator {u c v c'} (h : Operators u c v c')
    (hc : c.atOperator = false) : u = v ∧ c = c' := by
  cases h with
  | nil => exact ⟨rfl, rfl⟩
  | cons operator => simp [Place.atOperator, operator] at hc

theorem behindOperand_of_operators {u c v c'} (h : Operators u c v c') (hc : c'.atEnd = true) :
    c.behindOperand = true := by
  cases h with
  | nil => exact Place.behindOperand_of_atEnd hc
  | cons operator => simp [Place.behindOperand, Place.atOperator, operator]

theorem behindPrimary_of_steps {u c v c'} (h : Steps u c v c') (hc : c'.behindOperand = true) :
    c.behindPrimary = true := by
  cases h with
  | nil => exact Place.behindPrimary_of_behindOperand hc
  | cons step => cases step <;> simp [Place.behindPrimary, Place.atStep]

/-- A lambda body that reaches as far as it can ends where an expression can. -/
theorem atEnd_of_settled {c : Place} (h : c.settled = true) (hc : c.behindPrimary = true) :
    c.atEnd = true := by
  obtain ⟨h₁, h₂⟩ : c.atOperator = false ∧ c.atStep = false := by simpa [Place.settled] using h
  simpa [Place.behindPrimary, Place.behindOperand, h₁, h₂] using hc

/-- The marks that close a list of expressions. -/
def closes (q : Punct) : Bool := q == .rightParen || q == .rightBracket || q == .rightBrace

theorem atEnd_of_atMark {close : Punct} (h : closes close = true) {c : Place}
    (hc : atMark close c) : c.atEnd = true := by
  obtain hc | hc := hc
  · cases close <;> cases h <;> simp [Place.atEnd, hc]
  · simp [Place.atEnd, hc]

mutual

/-- **An expression is pinned** by what may stand behind it. -/
theorem Expression.unique : ∀ {c u c₁ v c₂}, Expression c u c₁ → Expression c v c₂ →
    c₁.atEnd = true → c₂.atEnd = true → u = v ∧ c₁ = c₂
  | _, _, _, _, _, .declaration type body, h, h₁, h₂ => by
      cases h with
      | declaration type' body' =>
        obtain ⟨rfl, rfl⟩ := type.unique type'
        obtain ⟨rfl, rfl⟩ := body.unique body' h₁ h₂
        exact ⟨rfl, rfl⟩
      | operation start => cases start
  | _, _, _, _, _, .operation start first others, h, h₁, h₂ => by
      cases h with
      | declaration => cases start
      | operation _ first' others' =>
        obtain ⟨rfl, rfl⟩ := first.unique first' (behindOperand_of_operators others h₁)
          (behindOperand_of_operators others' h₂)
        exact others.unique others' h₁ h₂
termination_by structural _ _ _ _ _ h => h

theorem Operators.unique : ∀ {left c u c₁ v c₂}, Operators left c u c₁ → Operators left c v c₂ →
    c₁.atEnd = true → c₂.atEnd = true → u = v ∧ c₁ = c₂
  | _, _, _, _, _, _, .nil, h, h₁, _ => h.nil_of_not_atOperator (Place.atOperator_of_atEnd h₁)
  | _, _, _, _, _, _, .cons operator operand others, h, h₁, h₂ => by
      cases h with
      | nil =>
        have h := Place.atOperator_of_atEnd h₂
        simp [Place.atOperator, operator] at h
      | cons operator' operand' others' =>
        obtain rfl : _ = _ := Option.some.inj (operator.symm.trans operator')
        obtain ⟨rfl, rfl⟩ := operand.unique operand' (behindOperand_of_operators others h₁)
          (behindOperand_of_operators others' h₂)
        exact others.unique others' h₁ h₂
termination_by structural _ _ _ _ _ _ h => h

theorem Operand.unique : ∀ {c u c₁ v c₂}, Operand c u c₁ → Operand c v c₂ →
    c₁.behindOperand = true → c₂.behindOperand = true → u = v ∧ c₁ = c₂
  | _, _, _, _, _, .negation operand, h, h₁, h₂ => by
      cases h with
      | negation operand' =>
        obtain ⟨rfl, rfl⟩ := operand.unique operand' h₁ h₂
        exact ⟨rfl, rfl⟩
      | steps primary => exact absurd rfl primary.next_ne_minus
  | _, _, _, _, _, .steps primary steps, h, h₁, h₂ => by
      cases h with
      | negation => exact absurd rfl primary.next_ne_minus
      | steps primary' steps' =>
        obtain ⟨rfl, rfl⟩ := primary.unique primary' (behindPrimary_of_steps steps h₁)
          (behindPrimary_of_steps steps' h₂)
        exact steps.unique steps' h₁ h₂
termination_by structural _ _ _ _ _ h => h

theorem Steps.unique : ∀ {target c u c₁ v c₂}, Steps target c u c₁ → Steps target c v c₂ →
    c₁.behindOperand = true → c₂.behindOperand = true → u = v ∧ c₁ = c₂
  | _, _, _, _, _, _, .nil, h, h₁, _ => h.nil_of_not_atStep (Place.atStep_of_behindOperand h₁)
  | _, _, _, _, _, _, .cons step others, h, h₁, h₂ => by
      cases h with
      | nil =>
        have h := Place.atStep_of_behindOperand h₂
        cases step <;> simp [Place.atStep] at h
      | cons step' others' =>
        obtain ⟨rfl, rfl⟩ := step.unique step' (behindPrimary_of_steps others h₁)
          (behindPrimary_of_steps others' h₂)
        exact others.unique others' h₁ h₂
termination_by structural _ _ _ _ _ _ h => h

theorem Step.unique : ∀ {target c u c₁ v c₂}, Step target c u c₁ → Step target c v c₂ →
    c₁.behindPrimary = true → c₂.behindPrimary = true → u = v ∧ c₁ = c₂
  | _, _, _, _, _, _, .field, h, h₁, _ => by
      cases h with
      | field => exact ⟨rfl, rfl⟩
      | annotated => cases h₁
      | call => cases h₁
  | _, _, _, _, _, _, .annotated type, h, h₁, h₂ => by
      cases h with
      | field => cases h₂
      | annotated type' =>
        obtain ⟨rfl, rfl⟩ := type.unique type'
        exact ⟨rfl, rfl⟩
      | call type' =>
        obtain ⟨-, rfl⟩ := type.unique type'
        cases h₁
  | _, _, _, _, _, _, .call type list, h, _, h₂ => by
      cases h with
      | field => cases h₂
      | annotated type' =>
        obtain ⟨-, rfl⟩ := type.unique type'
        cases h₂
      | call type' list' =>
        obtain ⟨rfl, h⟩ := type.unique type'
        cases h
        obtain ⟨rfl, h⟩ := Listed.unique (by decide) (fun h => h.opens rfl)
          (list.unique_items rfl) rfl list' rfl
        cases h
        exact ⟨rfl, rfl⟩
  | _, _, _, _, _, _, .offset index, h, _, _ => by
      cases h with
      | offset index' =>
        obtain ⟨rfl, h⟩ := index.unique index' rfl rfl
        cases h
        exact ⟨rfl, rfl⟩
termination_by structural _ _ _ _ _ _ h => h

theorem Primary.unique : ∀ {c u c₁ v c₂}, Primary c u c₁ → Primary c v c₂ →
    c₁.behindPrimary = true → c₂.behindPrimary = true → u = v ∧ c₁ = c₂
  | _, _, _, _, _, .int, h, _, _ => by cases h; exact ⟨rfl, rfl⟩
  | _, _, _, _, _, .float, h, _, _ => by cases h; exact ⟨rfl, rfl⟩
  | _, _, _, _, _, .string, h, _, _ => by cases h; exact ⟨rfl, rfl⟩
  | _, _, _, _, _, .name, h, h₁, _ => by
      cases h with
      | name => exact ⟨rfl, rfl⟩
      | annotated => cases h₁
  | _, _, _, _, _, .annotated type, h, _, h₂ => by
      cases h with
      | name => cases h₂
      | annotated type' =>
        obtain ⟨rfl, rfl⟩ := type.unique type'
        exact ⟨rfl, rfl⟩
  | _, _, _, _, _, .lambda list body greedy, h, h₁, h₂ => by
      cases h with
      | lambda list' body' greedy' =>
        obtain ⟨rfl, h⟩ := list.unique_names rfl list' rfl
        cases h
        obtain ⟨rfl, rfl⟩ := body.unique body' (atEnd_of_settled greedy h₁)
          (atEnd_of_settled greedy' h₂)
        exact ⟨rfl, rfl⟩
  | _, _, _, _, _, .thunk body greedy, h, h₁, h₂ => by
      cases h with
      | thunk body' greedy' =>
        obtain ⟨rfl, rfl⟩ := body.unique body' (atEnd_of_settled greedy h₁)
          (atEnd_of_settled greedy' h₂)
        exact ⟨rfl, rfl⟩
  | _, _, _, _, _, .parens inner, h, _, _ => by
      cases h with
      | parens inner' =>
        obtain ⟨rfl, h⟩ := inner.unique inner' rfl rfl
        cases h
        exact ⟨rfl, rfl⟩
  | _, _, _, _, _, .list list, h, _, _ => by
      cases h with
      | list list' =>
        obtain ⟨rfl, h⟩ := Listed.unique (by decide) (fun h => h.opens rfl)
          (list.unique_items rfl) rfl list' rfl
        cases h
        exact ⟨rfl, rfl⟩
  | _, _, _, _, _, .struct list, h, _, _ => by
      cases h with
      | struct list' =>
        obtain ⟨rfl, h⟩ := Listed.unique (by decide) (fun h => h.opens _)
          list.unique_entries rfl list' rfl
        cases h
        exact ⟨rfl, rfl⟩
termination_by structural _ _ _ _ _ h => h

theorem Field.unique : ∀ {c x c₁ y c₂}, Field c x c₁ → Field c y c₂ →
    c₁.atEnd = true → c₂.atEnd = true → x = y ∧ c₁ = c₂
  | _, _, _, _, _, .field value, h, h₁, h₂ => by
      cases h with
      | field value' =>
        obtain ⟨rfl, rfl⟩ := value.unique value' h₁ h₂
        exact ⟨rfl, rfl⟩
termination_by structural _ _ _ _ _ h => h

theorem Listed.unique_items : ∀ {c us c₁}, Listed Expression c us c₁ →
    ∀ {close}, closes close = true →
      Listed (fun c u c' => Expression c u c' ∧ Pinned Expression (atMark close) c u c') c us c₁
  | _, _, _, .none, _, _ => .none
  | _, _, _, .one item, _, h => .one ⟨item, fun h₁ _ _ item' h₂ =>
      item.unique item' (atEnd_of_atMark h h₁) (atEnd_of_atMark h h₂)⟩
  | _, _, _, .more item rest, _, h => .more ⟨item, fun h₁ _ _ item' h₂ =>
      item.unique item' (atEnd_of_atMark h h₁) (atEnd_of_atMark h h₂)⟩ (rest.unique_items h)
termination_by structural _ _ _ h => h

theorem Listed.unique_entries : ∀ {c xs c₁}, Listed Field c xs c₁ →
    Listed (fun c x c' => Field c x c' ∧ Pinned Field (atMark .rightBrace) c x c') c xs c₁
  | _, _, _, .none => .none
  | _, _, _, .one item => .one ⟨item, fun h₁ _ _ item' h₂ =>
      item.unique item' (atEnd_of_atMark rfl h₁) (atEnd_of_atMark rfl h₂)⟩
  | _, _, _, .more item rest => .more ⟨item, fun h₁ _ _ item' h₂ =>
      item.unique item' (atEnd_of_atMark rfl h₁) (atEnd_of_atMark rfl h₂)⟩ rest.unique_entries
termination_by structural _ _ _ h => h

end

/-- **No token list is two phrases.** -/
theorem Derives.unique {tokens : List Token} {u v : Phrase} (h : Derives tokens u)
    (h' : Derives tokens v) : u = v := by
  obtain ⟨_, h⟩ := h
  obtain ⟨_, h'⟩ := h'
  exact (h.unique h' rfl rfl).1

end Grammar

end Ascription
