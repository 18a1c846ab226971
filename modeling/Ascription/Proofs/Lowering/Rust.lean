import Ascription.Proofs.Except
import Ascription.Proofs.Expr.Within
import Ascription.Proofs.Lowering.Unique

/-!
# Proofs/Lowering/Rust — Rust source is unambiguous

    expression ──emit──▸ text ──grammar──▸ outline

The text of an expression is derived from its outline, whatever stands behind it: bare it is an
expression, and as an operand, in parentheses where it needs them, a chain.  A text has one
outline, so expressions that are written alike have the same one.
-/

namespace Ascription

namespace Rust

open Ascription.Expr (children)

/-! ## Expressions that show what they are -/

/-- Does the text of the literal show what it is? -/
def isLegibleLiteral : Literal → Bool
  | .string _ | .int _ => true
  | .float x => x.isFinite
  | .bool _ | .none => false

/-- **A node that shows what it is**: its names are identifiers, and a literal is an integer, a
finite float or a string. -/
def isLegible : Expr → Bool
  | .get _ n _ | .call _ _ n _ _ | .field _ _ n _ => isIdentifier n
  | .literal _ v => isLegibleLiteral v
  | .lambda _ ps _ => ps.all isIdentifier
  | _ => true

/-- All nodes of the expression show what they are. -/
def Legible (e : Expr) : Prop := e.Everywhere fun n => isLegible n = true

/-! ## Text in the grammar -/

/-- **The text shows the outline**, whatever stands behind it; it is an operand if it is not loose.
-/
inductive Shows (text : List Char) (o : Outline) : Bool → Prop
  | loose (h : ∀ rest, Expression (text ++ rest) o rest) : Shows text o true
  | tight (h : ∀ rest, Chain (text ++ rest) o rest) : Shows text o false

theorem Chain.expression {cs rest : List Char} {o : Outline} (h : Chain cs o rest) :
    Expression cs o rest := .operation h .none

theorem Steps.snoc : ∀ {target cs o mid u rest}, Steps target cs o mid → Step o mid u rest →
    Steps target cs u rest
  | _, _, _, _, _, _, .nil, h => .cons h .nil
  | _, _, _, _, _, _, .cons step others, h => .cons step (others.snoc h)

theorem Chain.step {cs mid rest : List Char} {o u : Outline} :
    Chain cs o mid → Step o mid u rest → Chain cs u rest
  | .steps primary others, h => .steps primary (others.snoc h)

theorem Chain.named {n : String} {mid rest : List Char} {o : Outline} (hn : isIdentifier n = true)
    (h : Named n mid o rest) : Chain (n.toList ++ mid) o rest := .steps (.word ⟨hn, rfl⟩ h) .nil

/-- As an expression. -/
theorem Shows.expression {text : List Char} {o : Outline} {loose : Bool} (h : Shows text o loose)
    (rest : List Char) : Expression (text ++ rest) o rest := by
  cases h with
  | loose h => exact h rest
  | tight h => exact (h rest).expression

/-- As an operand. -/
theorem Shows.operand {text : String} {o : Outline} {e : Expr}
    (h : Shows text.toList o (needsParens e))
    (rest : List Char) : Chain ((operand e text).toList ++ rest) o rest := by
  rw [Rust.operand]
  generalize needsParens e = loose at h
  cases h with
  | loose h => simpa using Chain.steps (.parens (h (')' :: rest))) .nil
  | tight h => exact h rest

/-- A number with its sign. -/
theorem shows_number {negative : Bool} {ds : List Char} {c : Char} {o : Outline}
    (h : Number ds c o) :
    Shows (Numeral.sign negative ++ ds ++ [c, '6', '4']) (.signed negative o) negative := by
  have hchain : ∀ rest, Chain (ds ++ [c, '6', '4'] ++ rest) o rest := fun rest =>
    .steps (.literal (.number h (List.append_assoc ..))) .nil
  cases negative with
  | true => exact .loose fun rest => .negation (hchain rest)
  | false => exact .tight hchain

theorem shows_literal {v : Literal} {span : Span} (hv : isLegibleLiteral v = true) :
    Shows (literal v).toList (.ofLiteral v) (needsParens (.literal span v)) := by
  cases v with
  | string s => exact .tight fun rest => .steps (.literal (.string rfl)) .nil
  | int n =>
    have hsign : (n.toInt < 0 : Bool) = (n < 0 : Bool) := by
      rw [decide_eq_decide, Int64.lt_iff_toInt_lt, Int64.toInt_zero]
    have htext : (literal (.int n)).toList =
        Numeral.sign (n < 0) ++ Notation.digits n.toInt.natAbs ++ ['i', '6', '4'] := by
      rw [literal, String.toList_append, Numeral.toList_toString, hsign]
      rfl
    rw [htext]
    exact shows_number .int
  | float x =>
    have htext : (literal (.float x)).toList =
        Numeral.sign x.negative ++ Notation.value.magnitude x ++ ['f', '6', '4'] := by
      rw [literal, String.toList_append, Numeral.text_of_isFinite hv, String.toList_ofList]
      rfl
    have hmagnitude : Notation.value.magnitude x = Notation.value.magnitude ⟨false, x.code⟩ :=
      Numeral.magnitude_congr rfl
    rw [htext, hmagnitude]
    exact shows_number (.float hv rfl)
  | bool | none => cases hv

/-- **The texts of the items** with commas between them are a list. -/
theorem listed_texts {α : Type} {Item : List Char → α → List Char → Prop} {texts : List String}
    {xs : List α}
    (h : List.Forall₂ (fun text x => ∀ rest, Item (text.toList ++ rest) x rest) texts xs)
    (rest : List Char) : Listed Item ((", ".intercalate texts).toList ++ rest) xs rest := by
  induction h with
  | nil => exact .none
  | @cons text x texts xs item others ih =>
    cases others with
    | nil => exact .one (by simpa using item rest)
    | cons =>
      rw [String.intercalate_cons_cons]
      exact .more (by simpa using item _) ih

mutual

/-- **The text of an expression shows its outline.** -/
theorem emit_shows : ∀ {e : Expr} {text : String}, Legible e → emit e = .ok text →
    Shows text.toList (outline e) (needsParens e)
  | .get _ n _, _, he, h => by
    cases h
    exact .tight fun rest => .named he.here .self
  | .literal _ v, _, he, h => by
    cases h
    exact shows_literal he.here
  | .binary _ op l r, _, he, h => by
    obtain ⟨left, hl, h⟩ := Except.bind_eq_ok.mp h
    obtain ⟨right, hr, h⟩ := Except.bind_eq_ok.mp h
    cases h
    have hleft := emit_shows (he.part (by simp [children])) hl
    have hright := emit_shows (he.part (by simp [children])) hr
    refine .loose fun rest => ?_
    simpa [outline] using Expression.operation (hleft.operand _) (.some rfl (hright.operand rest))
  | .negative _ e, _, he, h => by
    obtain ⟨text, ht, h⟩ := Except.bind_eq_ok.mp h
    cases h
    have hoperand := emit_shows (he.part (by simp [children])) ht
    refine .loose fun rest => ?_
    simpa [outline] using Expression.negation (hoperand.operand rest)
  | .call _ t n _ as, _, he, h => by
    obtain ⟨target, ht, h⟩ := Except.bind_eq_ok.mp h
    obtain ⟨args, has, h⟩ := Except.bind_eq_ok.mp h
    cases h
    have htarget := emit_shows (he.part List.mem_cons_self) ht
    have hargs := emitAll_shows (fun a ha => he.part (List.mem_cons_of_mem _ ha)) has
    refine .tight fun rest => ?_
    have hlist := listed_texts (.cons htarget.expression hargs) (')' :: rest)
    simpa [outline] using Chain.named he.here (.call hlist)
  | .lambda _ ps b, _, he, h => by
    obtain ⟨body, hb, h⟩ := Except.bind_eq_ok.mp h
    cases h
    have hbody := emit_shows (he.part (by simp [children])) hb
    have hparams : List.Forall₂ (fun text n => ∀ rest, Word (text.toList ++ rest) n rest) ps ps :=
      List.forall₂_same.mpr fun p hp _ => ⟨List.all_eq_true.mp he.here p hp, rfl⟩
    refine .loose fun rest => ?_
    simpa [outline] using Expression.lambda (listed_texts hparams _) (hbody.expression rest)
  | .list _ es, _, he, h => by
    obtain ⟨items, hitems, h⟩ := Except.bind_eq_ok.mp h
    cases h
    have hitem : ∀ e ∈ es, Legible e := fun e he' => he.part he'
    have hshows := emitAll_shows hitem hitems
    refine .tight fun rest => ?_
    -- the macro is a name like any other, told from a call by what follows it
    have hlist := listed_texts hshows (']' :: rest)
    simpa [outline] using Chain.named (n := "vec") rfl (.list hlist)
  | .struct _ _, _, _, h => nomatch h
  | .field _ t n _, _, he, h => by
    obtain ⟨target, ht, h⟩ := Except.bind_eq_ok.mp h
    cases h
    have htarget := emit_shows (he.part (by simp [children])) ht
    refine .tight fun rest => ?_
    simpa [outline] using (htarget.operand _).step (.field ⟨he.here, rfl⟩)
  | .offset _ t k, _, he, h => by
    obtain ⟨target, ht, h⟩ := Except.bind_eq_ok.mp h
    obtain ⟨key, hk, h⟩ := Except.bind_eq_ok.mp h
    have htarget := emit_shows (he.part (by simp [children])) ht
    have hkey := emit_shows (he.part (by simp [children])) hk
    refine .tight fun rest => ?_
    rw [outline]
    split at h
    case isTrue hmap =>
      cases h
      rw [hmap]
      simpa using (htarget.operand _).step (.mapOffset (hkey.operand (']' :: rest)))
    case isFalse hlist =>
      cases h
      rw [Bool.eq_false_iff.mpr hlist]
      simpa using (htarget.operand _).step (.offset (hkey.operand _) rfl)

theorem emitAll_shows : ∀ {es : List Expr} {texts : List String}, (∀ e ∈ es, Legible e) →
    emitAll es = .ok texts →
    List.Forall₂ (fun text o => ∀ rest, Expression (text.toList ++ rest) o rest) texts
      (outlineAll es)
  | [], _, _, h => by
    cases h
    exact .nil
  | e :: es, _, he, h => by
    obtain ⟨hlegible, hothers⟩ := List.forall_mem_cons.mp he
    obtain ⟨text, ht, h⟩ := Except.bind_eq_ok.mp h
    obtain ⟨texts, hts, h⟩ := Except.bind_eq_ok.mp h
    cases h
    exact .cons (emit_shows hlegible ht).expression (emitAll_shows hothers hts)

end

/-- **Rust source is unambiguous**: two expressions that are written as the same text have the same
outline, if they show what they are. -/
theorem outline_eq_of_emit {e e' : Expr} {text : String} (he : Legible e) (he' : Legible e')
    (h : emit e = .ok text) (h' : emit e' = .ok text) : outline e = outline e' := by
  have hend : Before closings [] := nofun
  have hshown := (emit_shows he h).expression []
  exact (hshown.unique ((emit_shows he' h').expression []) hend hend).1

/-- A sign and a negation, with other spans and types around them. -/
theorem outline_eq_of_emit_signed :
    let here := Span.point Position.first
    let there := Span.point ⟨2, 7⟩
    let e := Expr.call here (.negative here (.literal here (.int 3))) "clamp" .int
      [.lambda here ["x"] (.offset here (.get here "xs" (.list .int)) (.get here "x" .int))]
    let e' := Expr.call there (.literal there (.int (-3))) "clamp" .any
      [.lambda there ["x"] (.offset there (.get there "xs" .any) (.get there "x" .float))]
    let text := "clamp(-3i64, |x| xs[x as usize])"
    Legible e ∧ Legible e' ∧ emit e = .ok text ∧ emit e' = .ok text ∧ outline e = outline e' := by
  intro here there e e' text
  have hleaf : ∀ {leaf : Expr}, isLegible leaf = true → leaf.children = [] → Legible leaf :=
    fun h hc => .node h (by rw [hc]; nofun)
  have hpair : ∀ {a b : Expr}, Legible a → Legible b → ∀ c ∈ [a, b], Legible c := fun ha hb =>
    List.forall_mem_cons.mpr ⟨ha, List.forall_mem_singleton.mpr hb⟩
  have hlambda : ∀ span list index, Legible
      (.lambda span ["x"] (.offset span (.get span "xs" list) (.get span "x" index))) := by
    intro span list index
    have hoffset : Legible (.offset span (.get span "xs" list) (.get span "x" index)) :=
      .node rfl (hpair (hleaf rfl rfl) (hleaf rfl rfl))
    exact .node rfl (List.forall_mem_singleton.mpr hoffset)
  have hnegative : Legible (.negative here (.literal here (.int 3))) :=
    .node rfl (List.forall_mem_singleton.mpr (hleaf rfl rfl))
  have he : Legible e := .node rfl (hpair hnegative (hlambda _ _ _))
  have he' : Legible e' := .node rfl (hpair (hleaf rfl rfl) (hlambda _ _ _))
  have h : emit e = .ok text := by rfl
  have h' : emit e' = .ok text := by rfl
  exact ⟨he, he', h, h', outline_eq_of_emit he he' h h'⟩

end Rust

end Ascription
