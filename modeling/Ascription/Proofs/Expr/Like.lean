import Ascription.Proofs.Expr.Spans
import Ascription.Proofs.Value.Related

/-!
# Proofs/Expr/Like — expressions that differ in their spans, and the names they mention

Two expressions are like each other when they are the same tree and the spans of each two nodes are
related.  A scope matters to an expression through the names it mentions: those it reads, those it
binds as parameters, which must not be visible, and those it calls.
-/

namespace Ascription

namespace Expr

/-! ## The same tree -/

/-- **The same tree**, with the spans of its nodes related by `S`. -/
inductive Like (S : Span → Span → Prop) : Expr → Expr → Prop
  | get {s s' name type} (span : S s s') : Like S (.get s name type) (.get s' name type)
  | literal {s s' value} (span : S s s') : Like S (.literal s value) (.literal s' value)
  | binary {s s' op l l' r r'} (span : S s s') (left : Like S l l') (right : Like S r r') :
      Like S (.binary s op l r) (.binary s' op l' r')
  | negative {s s' e e'} (span : S s s') (operand : Like S e e') :
      Like S (.negative s e) (.negative s' e')
  | call {s s' t t' name result as as'} (span : S s s') (target : Like S t t')
      (args : List.Forall₂ (Like S) as as') :
      Like S (.call s t name result as) (.call s' t' name result as')
  | lambda {s s' params b b'} (span : S s s') (body : Like S b b') :
      Like S (.lambda s params b) (.lambda s' params b')
  | list {s s' es es'} (span : S s s') (items : List.Forall₂ (Like S) es es') :
      Like S (.list s es) (.list s' es')
  | struct {s s' fs fs'} (span : S s s') (fields : Entries.Related (Like S) fs fs') :
      Like S (.struct s fs) (.struct s' fs')
  | field {s s' t t' name type} (span : S s s') (target : Like S t t') :
      Like S (.field s t name type) (.field s' t' name type)
  | offset {s s' t t' k k'} (span : S s s') (target : Like S t t') (key : Like S k k') :
      Like S (.offset s t k) (.offset s' t' k')

/-- An expression is like itself when the span of each node is related to itself. -/
theorem Like.self {S : Span → Span → Prop} {e : Expr} (h : e.Everywhere fun n => S n.span n.span) :
    Like S e e := by
  induction e using children_induction with
  | h e ih =>
  have ih := fun c (hc : c ∈ e.children) => ih c hc (h.part hc)
  have hspan := h.here
  cases e with
  | get => exact .get hspan
  | literal => exact .literal hspan
  | binary => exact .binary hspan (ih _ (by simp [children])) (ih _ (by simp [children]))
  | negative => exact .negative hspan (ih _ List.mem_cons_self)
  | call =>
    refine .call hspan (ih _ List.mem_cons_self) (List.forall₂_same.mpr fun a ha => ?_)
    exact ih a (List.mem_cons_of_mem _ ha)
  | lambda => exact .lambda hspan (ih _ List.mem_cons_self)
  | list => exact .list hspan (List.forall₂_same.mpr ih)
  | struct => exact .struct hspan (.same fun f hf => ih f.2 (List.mem_map_of_mem hf))
  | field => exact .field hspan (ih _ List.mem_cons_self)
  | offset => exact .offset hspan (ih _ (by simp [children])) (ih _ (by simp [children]))

mutual

/-- Expressions that are like each other with equal spans are equal. -/
theorem Like.eq : ∀ {e e' : Expr}, Like Eq e e' → e = e'
  | _, _, .get rfl | _, _, .literal rfl => rfl
  | _, _, .binary rfl left right => by rw [left.eq, right.eq]
  | _, _, .negative rfl operand => by rw [operand.eq]
  | _, _, .call rfl target args => by rw [target.eq, eq_of_forall₂_like args]
  | _, _, .lambda rfl body => by rw [body.eq]
  | _, _, .list rfl items => by rw [eq_of_forall₂_like items]
  | _, _, .struct rfl fields => by rw [eq_of_related_like fields]
  | _, _, .field rfl target => by rw [target.eq]
  | _, _, .offset rfl target key => by rw [target.eq, key.eq]

theorem eq_of_forall₂_like : ∀ {es es' : List Expr}, List.Forall₂ (Like Eq) es es' → es = es'
  | _, _, .nil => rfl
  | _, _, .cons h hs => by rw [h.eq, eq_of_forall₂_like hs]

theorem eq_of_related_like : ∀ {fs fs' : List (String × Expr)},
    Entries.Related (Like Eq) fs fs' → fs = fs'
  | _, _, .nil => rfl
  | _, _, .cons h hs => by rw [h.eq, eq_of_related_like hs]

end

/-! ## Without spans -/

variable {S : Span → Span → Prop}

theorem Like.span {e e' : Expr} (h : Like S e e') : S e.span e'.span := by
  cases h <;> assumption

mutual

theorem Like.eraseSpans_eq : ∀ {e e' : Expr}, Like S e e' → e.eraseSpans = e'.eraseSpans
  | _, _, .get _ | _, _, .literal _ => rfl
  | _, _, .binary _ left right => by
    rw [eraseSpans, eraseSpans, left.eraseSpans_eq, right.eraseSpans_eq]
  | _, _, .negative _ operand => by rw [eraseSpans, eraseSpans, operand.eraseSpans_eq]
  | _, _, .call _ target args => by
    rw [eraseSpans, eraseSpans, target.eraseSpans_eq, eraseAll_eq_of_like args]
  | _, _, .lambda _ body => by rw [eraseSpans, eraseSpans, body.eraseSpans_eq]
  | _, _, .list _ items => by rw [eraseSpans, eraseSpans, eraseAll_eq_of_like items]
  | _, _, .struct _ fields => by rw [eraseSpans, eraseSpans, eraseFields_eq_of_like fields]
  | _, _, .field _ target => by rw [eraseSpans, eraseSpans, target.eraseSpans_eq]
  | _, _, .offset _ target key => by
    rw [eraseSpans, eraseSpans, target.eraseSpans_eq, key.eraseSpans_eq]

theorem eraseAll_eq_of_like : ∀ {es es' : List Expr}, List.Forall₂ (Like S) es es' →
    eraseAll es = eraseAll es'
  | _, _, .nil => rfl
  | _, _, .cons h hs => by rw [eraseAll, eraseAll, h.eraseSpans_eq, eraseAll_eq_of_like hs]

theorem eraseFields_eq_of_like : ∀ {fs fs' : List (String × Expr)},
    Entries.Related (Like S) fs fs' → eraseFields fs = eraseFields fs'
  | _, _, .nil => rfl
  | _, _, .cons h hs => by rw [eraseFields, eraseFields, h.eraseSpans_eq, eraseFields_eq_of_like hs]

end

mutual

/-- An expression is like itself without its spans. -/
theorem like_eraseSpans (hS : ∀ s, S s .synthetic) : ∀ e : Expr, Like S e e.eraseSpans
  | get s _ _ => .get (hS s)
  | literal s _ => .literal (hS s)
  | binary s _ l r => .binary (hS s) (like_eraseSpans hS l) (like_eraseSpans hS r)
  | negative s e => .negative (hS s) (like_eraseSpans hS e)
  | call s t _ _ as => .call (hS s) (like_eraseSpans hS t) (like_eraseAll hS as)
  | lambda s _ b => .lambda (hS s) (like_eraseSpans hS b)
  | list s es => .list (hS s) (like_eraseAll hS es)
  | struct s fs => .struct (hS s) (like_eraseFields hS fs)
  | field s t _ _ => .field (hS s) (like_eraseSpans hS t)
  | offset s t k => .offset (hS s) (like_eraseSpans hS t) (like_eraseSpans hS k)

theorem like_eraseAll (hS : ∀ s, S s .synthetic) :
    ∀ es : List Expr, List.Forall₂ (Like S) es (eraseAll es)
  | [] => .nil
  | e :: es => .cons (like_eraseSpans hS e) (like_eraseAll hS es)

theorem like_eraseFields (hS : ∀ s, S s .synthetic) :
    ∀ fs : List (String × Expr), Entries.Related (Like S) fs (eraseFields fs)
  | [] => .nil
  | (_, e) :: fs => .cons (like_eraseSpans hS e) (like_eraseFields hS fs)

end

theorem Like.type?_eq {e e' : Expr} (h : Like S e e') : e.type? = e'.type? := by
  rw [← type?_eraseSpans, h.eraseSpans_eq, type?_eraseSpans]

theorem map_type?_eq_of_like {es es' : List Expr} (h : List.Forall₂ (Like S) es es') :
    es.map type? = es'.map type? := by
  induction h with
  | nil => rfl
  | cons h _ ih => rw [List.map_cons, List.map_cons, h.type?_eq, ih]

/-! ## Names -/

/-- The variables that a node mentions: the one it reads, or those it binds as parameters. -/
def names : Expr → List String
  | get _ name _ => [name]
  | lambda _ params _ => params
  | _ => []

/-- The function that a node calls. -/
def callee? : Expr → Option String
  | call _ _ name _ _ => some name
  | _ => none

/-- An expression reads a variable or uses it as a parameter, lambda bodies included. -/
def Reads (e : Expr) (name : String) : Prop := ∃ n, Within n e ∧ name ∈ n.names

/-- An expression calls a function, lambda bodies included. -/
def Calls (e : Expr) (name : String) : Prop := ∃ n, Within n e ∧ n.callee? = some name

variable {c e : Expr} {name : String}

theorem Reads.part (h : c.Reads name) (hc : c ∈ e.children) : e.Reads name := by
  obtain ⟨n, hn, hname⟩ := h
  exact ⟨n, .part hc hn, hname⟩

theorem Calls.part (h : c.Calls name) (hc : c ∈ e.children) : e.Calls name := by
  obtain ⟨n, hn, hname⟩ := h
  exact ⟨n, .part hc hn, hname⟩

end Expr

end Ascription
