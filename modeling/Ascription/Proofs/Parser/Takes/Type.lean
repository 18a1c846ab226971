import Ascription.Parser.Type
import Ascription.Proofs.Except
import Ascription.Proofs.Parser.Takes

/-!
# Proofs/Parser/Takes/Type — types take tokens and know where they fail

Each production of the grammar of types starts with a token of its own, so the types inside have
fewer tokens to come.  Every span in a written type is that of tokens, and what is wrong with a name
is said where the name was written.
-/

namespace Ascription

/-! ## The spans of a written type -/

namespace TypeExpr

/-- **Every span in a written type has the property**, those of its fields included. -/
inductive Spanned (P : Span → Prop) : TypeExpr → Prop
  | named {span name args} (here : P span) (inner : ∀ t ∈ args, Spanned P t) :
      Spanned P (.named span name args)
  | func {span params result} (here : P span) (inner : ∀ t ∈ params, Spanned P t)
      (returns : Spanned P result) : Spanned P (.func span params result)
  | struct {span fields} (here : P span) (inner : ∀ f ∈ fields, Spanned P f.2.1)
      (spans : ∀ f ∈ fields, P f.2.2) : Spanned P (.struct span fields)

theorem Spanned.span {P : Span → Prop} {t : TypeExpr} : t.Spanned P → P t.span
  | .named here _ | .func here _ _ | .struct here _ _ => here

end TypeExpr

namespace Registry

variable {P : Span → Prop} {r : Registry} {e : TypeError}

theorem resolveAll_error {ts : List TypeExpr}
    (h : ∀ t ∈ ts, ∀ e, r.resolve t = .error e → P e.span) (he : r.resolveAll ts = .error e) :
    P e.span := by
  induction ts with
  | nil => cases he
  | cons t ts ih =>
    obtain ⟨ht, hts⟩ := List.forall_mem_cons.mp h
    rw [resolveAll] at he
    obtain he | ⟨type, -, he⟩ := Except.bind_eq_error.mp he
    · exact ht e he
    · obtain he | ⟨types, -, he⟩ := Except.bind_eq_error.mp he
      · exact ih hts he
      · cases he

theorem resolveFields_error {done : List (String × Ty)} {fields : List (String × TypeExpr × Span)}
    (h : ∀ f ∈ fields, ∀ e, r.resolve f.2.1 = .error e → P e.span) (hspans : ∀ f ∈ fields, P f.2.2)
    (he : r.resolveFields done fields = .error e) : P e.span := by
  induction fields generalizing done with
  | nil => cases he
  | cons f fields ih =>
    obtain ⟨name, t, span⟩ := f
    obtain ⟨ht, hts⟩ := List.forall_mem_cons.mp h
    obtain ⟨hspan, hspans⟩ := List.forall_mem_cons.mp hspans
    rw [resolveFields] at he
    split at he
    case isTrue =>
      cases he
      exact hspan
    case isFalse =>
      obtain he | ⟨type, -, he⟩ := Except.bind_eq_error.mp he
      · exact ht e he
      · exact ih hts hspans he

/-- **What is wrong with a written type is said at a span in it.** -/
theorem resolve_error {t : TypeExpr} (h : t.Spanned P) (he : r.resolve t = .error e) :
    P e.span := by
  induction h generalizing e with
  | @named span name args here inner ih =>
    unfold resolve at he
    split at he
    · split at he <;> cases he
      exact here
    split at he
    · split at he
      case h_1 arg =>
        exact ih arg List.mem_cons_self (Except.map_eq_error.mp he)
      case h_2 =>
        cases he
        exact here
    split at he
    · split at he
      case h_1 k v =>
        obtain he | ⟨key, -, he⟩ := Except.bind_eq_error.mp he
        · exact ih k List.mem_cons_self he
        obtain he | ⟨value, -, he⟩ := Except.bind_eq_error.mp he
        · exact ih v (List.mem_cons_of_mem k List.mem_cons_self) he
        split at he <;> cases he
        exact (inner k List.mem_cons_self).span
      case h_2 =>
        cases he
        exact here
    split at he
    · cases he
      exact here
    · split at he <;> cases he
      exact here
  | func here inner returns ihs ih =>
    rw [resolve] at he
    obtain he | ⟨types, -, he⟩ := Except.bind_eq_error.mp he
    · exact resolveAll_error (fun t ht e => ihs t ht) he
    obtain he | ⟨type, -, he⟩ := Except.bind_eq_error.mp he
    · exact ih he
    · cases he
  | struct here inner spans ih =>
    rw [resolve] at he
    obtain he | ⟨types, -, he⟩ := Except.bind_eq_error.mp he
    · exact resolveFields_error (fun f hf e => ih f hf) spans he
    · cases he

end Registry

/-! ## Types -/

namespace Parser

open TypeExpr

section

variable {B : Blame} {n : Nat} {type : Parser TypeExpr}

theorem typeField_takes (h : Takes B n (Spanned B.spans) type) :
    Takes B n (fun f => Spanned B.spans f.2.1 ∧ B.spans f.2.2) (typeField type) :=
  Takes.expectName.bind fun ⟨_, _⟩ hspan => (Takes.expect (by decide)).keeps.bind fun _ _ =>
    h.keeps.bind fun _ ht => .pure ⟨ht, B.merge hspan ht.span⟩

theorem structType_takes (h : Takes B n (Spanned B.spans) type) :
    Takes B (n + 1) (Spanned B.spans) (structType type) :=
  (Takes.expect (by decide)).first fun _ hstart =>
    (Keeps.items (fun _ _ => typeField_takes h) (by decide)).bind fun _ hfields =>
    Keeps.previousSpan.bind fun _ hstop => .pure (.struct (B.merge hstart hstop)
      (fun f hf => (hfields f hf).1) fun f hf => (hfields f hf).2)

theorem funcType_keeps (h : Takes B n (Spanned B.spans) type) {start : Span}
    (hstart : B.spans start) : Keeps B n (Spanned B.spans) (funcType type start) :=
  (Takes.expect (by decide)).keeps.bind fun _ _ =>
    (Keeps.items (fun _ _ => h) (by decide)).bind fun _ hparams =>
    (Takes.expect (by decide)).keeps.bind fun _ _ => h.keeps.bind fun _ hresult =>
      .pure (.func (B.merge hstart hresult.span) hparams hresult)

theorem typeArgs_keeps (h : Takes B n (Spanned B.spans) type) {name : String} {span : Span}
    (hspan : B.spans span) : Keeps B n (Spanned B.spans) (typeArgs type name span) := by
  have hnamed : Spanned B.spans (.named span name []) := .named hspan nofun
  refine Keeps.accept.bind fun less _ => ?_
  cases less with
  | false => exact .pure hnamed
  | true =>
    refine (Keeps.items (fun _ _ => h) (by decide)).bind fun args hargs => ?_
    split
    · exact .pure hnamed
    · exact Keeps.previousSpan.bind fun _ hstop => .pure (.named (B.merge hspan hstop) hargs)

/-- **One step of the grammar of types** takes a token before it reads the types inside. -/
theorem typeStep_takes (h : Takes B n (Spanned B.spans) type) :
    Takes B (n + 1) (Spanned B.spans) (typeStep type) := by
  intro s hs hn
  rw [typeStep, peek_bind]
  rcases s.place.next with _ | k
  · exact expected_meets hs (by decide)
  cases k with
  | name name =>
    have hnamed : Takes B (n + 1) (Spanned B.spans) (do
        let written ← expectName
        if written.1 == "fn" && (← looksAt .leftParen) then funcType type written.2
        else typeArgs type written.1 written.2) := by
      refine Takes.expectName.first fun _ hspan => Keeps.looksAt.bind fun _ _ => ?_
      split
      · exact funcType_keeps h hspan
      · exact typeArgs_keeps h hspan
    exact hnamed s hs hn
  | punct p =>
    cases p with
    | leftBrace => exact structType_takes h s hs hn
    | _ => exact expected_meets hs (by decide)
  | _ => exact expected_meets hs (by decide)

theorem typeFrom_takes {fuel : Nat} : Takes B fuel (Spanned B.spans) (typeFrom fuel) := by
  induction fuel with
  | zero => exact fun _ _ hn => absurd hn (Nat.not_lt_zero _)
  | succ fuel ih => exact typeStep_takes ih

end

/-- **A type** that is read and looked up. -/
theorem Takes.type {B : Blame} {n : Nat} {registry : Registry} :
    Takes B n (fun _ => True) (type registry) := by
  have htypeExpr : Takes B n (Spanned B.spans) typeExpr := fun s hs _ =>
    typeFrom_takes s hs (Nat.lt_succ_self _)
  exact htypeExpr.bind fun _ ht => .judge fun _ he => Registry.resolve_error ht he

end Parser

end Ascription
