import Ascription.Proofs.Expr.ReadsBack
import Ascription.Proofs.Expr.Within
import Ascription.Proofs.Parser.TwoPass

/-!
# Proofs/Parser/RoundTrip — canonical text reads as the tree it is the text of

    tree ──text──▸ source ──parse──▸ tree, with other spans

The tree has to be one that a text can stand for: its names are words, its types can be read back,
its literals can be spelled, and every node obeys its static rule.
-/

namespace Ascription

open Lexer (IsName)

/-- **A name that is one word** of a text. -/
def IsIdentifier (n : String) : Prop := ∃ span, tokenize n = .ok [⟨.name n, span⟩]

theorem IsIdentifier.isName {n : String} (h : IsIdentifier n) : IsName n.toList := by
  obtain ⟨span, h⟩ := h
  exact Lexer.isName_of_tokenize h _ List.mem_cons_self n rfl

namespace Expr

/-- The literals that can be spelled. -/
def Spellable : Literal → Prop
  | .string s => '\"' ∉ s.toList
  | .int _ => True
  | .float x => x.isFinite = true
  | .bool _ | .none => False

/-- **What is written on a node can be read back**: its names, its type and its literal. -/
def Writable (r : Registry) : Expr → Prop
  | get _ n t | field _ _ n t | call _ _ n t _ => IsIdentifier n ∧ parseType t.text r = .ok t
  | literal _ v => Spellable v
  | lambda _ params _ => ∀ n ∈ params, IsIdentifier n
  | struct _ fs => ∀ f ∈ fs, IsIdentifier f.1
  | binary _ _ _ _ | negative _ _ | list _ _ | offset _ _ _ => True

/-- **A tree that a text can stand for.** -/
structure WellFormed (r : Registry) (e : Expr) : Prop where
  writable : Everywhere (Writable r) e
  ruled : Everywhere (Ruled fun _ => True) e

variable {r : Registry}

theorem WellFormed.part {e : Expr} (h : e.WellFormed r) : ∀ c ∈ e.children, c.WellFormed r :=
  fun _ hc => ⟨h.writable.part hc, h.ruled.part hc⟩

theorem WellFormed.literals {e : Expr} (h : e.WellFormed r) :
    Everywhere (Known fun v => v.equal v = true) e := by
  rintro n hn span v rfl
  refine equal_literal fun x hx => Binary64.isNaN_eq_false_of_isFinite ?_
  subst hx
  exact h.writable _ hn

/-- The type of a node is read back in the middle of a text as well. -/
theorem renders_of_parseType (hr : r.Built) {t : Ty} (h : parseType t.text r = .ok t) :
    Renders Breaks NotLess Grammar.TypeName t.text fun w => r.resolve w = .ok t :=
  Registry.renders_type (hr.alias?_reserved rfl) (printable_of_parseType h)

/-- **Every well-formed tree reads back**, whatever stands behind its text. -/
theorem WellFormed.readsBack (hr : r.Built) {e : Expr} (h : e.WellFormed r) : ReadsBack r e := by
  induction e using children_induction with
  | h e ih =>
  have ih : ∀ c ∈ e.children, ReadsBack r c := fun c hc => ih c hc (h.part c hc)
  have hw := h.writable.here
  have hrule := h.ruled.here
  cases e with
  | get span n t => exact readsBack_get hw.1.isName (renders_of_parseType hr hw.2)
  | literal span v => cases v with
    | string s => exact readsBack_string hw
    | int m => exact readsBack_int
    | float x => exact readsBack_float hw
    | bool | none => cases hw
  | binary span op a b =>
    exact readsBack_binary hrule (ih a (by simp [children])) (ih b (by simp [children]))
  | negative span a => exact readsBack_negative hrule (ih a List.mem_cons_self)
  | call span a n t args =>
    exact readsBack_call hw.1.isName (renders_of_parseType hr hw.2) (ih a List.mem_cons_self)
      fun c hc => ih c (List.mem_cons_of_mem _ hc)
  | lambda span params a =>
    exact readsBack_lambda (fun n hn => (hw n hn).isName) (ih a List.mem_cons_self)
  | list span items => exact readsBack_list hrule ih
  | struct span fs =>
    exact readsBack_struct hrule (fun f hf => (hw f hf).isName) fun f hf =>
      ih f.2 (List.mem_map_of_mem hf)
  | field span a n t =>
    exact readsBack_field hrule hw.1.isName (renders_of_parseType hr hw.2) (ih a List.mem_cons_self)
  | offset span a b =>
    exact readsBack_offset hrule (ih a (by simp [children])) (ih b (by simp [children]))

end Expr

/-- **Canonical text reads back**: parsing the text of a well-formed tree succeeds, with a tree that
is equal to it and has the same types on its nodes; only the spans are others. -/
theorem parse_text {r : Registry} (hr : r.Built) {e : Expr} (h : e.WellFormed r) :
    ∃ e', parse e.text r = .ok e' ∧ e'.equal e = true ∧ e'.eraseSpans = e.eraseSpans := by
  have hrenders := (h.readsBack hr).expression
  obtain ⟨ks, hlex, hread⟩ := hrenders apart_nil closed_nil .nil
  rw [List.append_nil] at hlex
  obtain ⟨tokens, htokens, hks⟩ := hlex.tokenize
  obtain ⟨u, c, hu, hc, e', he, herase⟩ := hread ⟨Span.point Position.first, tokens⟩ hks
  obtain ⟨stop, rest⟩ := c
  obtain rfl : rest = [] := List.map_eq_nil_iff.mp hc
  refine ⟨e', ?_, Expr.equal_of_eraseSpans h.literals e' herase, herase⟩
  have hparse : parseProgram e.text r [] = .ok (e', []) :=
    parseProgram_eq_ok.mpr ⟨tokens, htokens, u, ⟨stop, hu⟩, he⟩
  exact Except.map_eq_ok.mpr ⟨_, hparse, rfl⟩

/-- A number as a target, a lambda as an argument, and a negation behind an operator. -/
theorem parse_text_call :
    let e : Expr := .call .synthetic (.literal .synthetic (.int 1)) "take" .int
      [.lambda .synthetic ["x"] (.binary .synthetic .subtract (.get .synthetic "x" .int)
        (.negative .synthetic (.literal .synthetic (.int 2))))]
    e.text = "(1).take:int(|x| x:int - - 2)" ∧ Registry.initial.Built ∧ e.WellFormed .initial ∧
      ∃ e', parse e.text .initial = .ok e' ∧ e'.equal e = true ∧ e'.eraseSpans = e.eraseSpans := by
  intro e
  have hx : IsIdentifier "x" := ⟨_, rfl⟩
  have htake : IsIdentifier "take" := ⟨_, rfl⟩
  have hint : parseType Ty.int.text .initial = .ok .int := rfl
  have hwritable : Expr.Everywhere (Expr.Writable .initial) e := by
    refine .node ⟨htake, hint⟩ (List.forall_mem_cons.mpr ⟨.node trivial nofun, ?_⟩)
    refine List.forall_mem_cons.mpr ⟨.node (List.forall_mem_cons.mpr ⟨hx, nofun⟩) ?_, nofun⟩
    refine List.forall_mem_cons.mpr ⟨.node trivial (List.forall_mem_cons.mpr ⟨?_, ?_⟩), nofun⟩
    · exact .node ⟨hx, hint⟩ nofun
    · refine List.forall_mem_cons.mpr ⟨.node trivial (List.forall_mem_cons.mpr ⟨?_, nofun⟩), nofun⟩
      exact .node trivial nofun
  have hruled : Expr.Everywhere (Expr.Ruled fun _ => True) e := by
    refine .node trivial (List.forall_mem_cons.mpr ⟨.node trivial nofun, ?_⟩)
    refine List.forall_mem_cons.mpr ⟨.node trivial ?_, nofun⟩
    refine List.forall_mem_cons.mpr ⟨.node rfl (List.forall_mem_cons.mpr ⟨?_, ?_⟩), nofun⟩
    · exact .node trivial nofun
    · refine List.forall_mem_cons.mpr ⟨.node rfl (List.forall_mem_cons.mpr ⟨?_, nofun⟩), nofun⟩
      exact .node trivial nofun
  exact ⟨by decide +kernel, .initial, ⟨hwritable, hruled⟩, parse_text .initial ⟨hwritable, hruled⟩⟩

end Ascription
