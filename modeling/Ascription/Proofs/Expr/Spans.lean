import Ascription.Proofs.Expr.StaticType
import Ascription.Proofs.Rule

/-!
# Proofs/Expr/Spans — what does not depend on the spans of an expression

Two expressions with one tree behind their spans are equal, have one static type and obey the same
rules.  So a text that is read for a tree built by hand can only give other spans.
-/

namespace Ascription

open Phrase

namespace Expr

mutual

/-- **The expression without its spans.** -/
def eraseSpans : Expr → Expr
  | get _ n t => get .synthetic n t
  | literal _ v => literal .synthetic v
  | binary _ op l r => binary .synthetic op (eraseSpans l) (eraseSpans r)
  | negative _ e => negative .synthetic (eraseSpans e)
  | call _ t n r as => call .synthetic (eraseSpans t) n r (eraseAll as)
  | lambda _ ps b => lambda .synthetic ps (eraseSpans b)
  | list _ es => list .synthetic (eraseAll es)
  | struct _ fs => struct .synthetic (eraseFields fs)
  | field _ t n ty => field .synthetic (eraseSpans t) n ty
  | offset _ t k => offset .synthetic (eraseSpans t) (eraseSpans k)

/-- The expressions of a list without their spans. -/
def eraseAll : List Expr → List Expr
  | [] => []
  | e :: es => eraseSpans e :: eraseAll es

/-- The fields of a struct literal without their spans. -/
def eraseFields : List (String × Expr) → List (String × Expr)
  | [] => []
  | (n, e) :: fs => (n, eraseSpans e) :: eraseFields fs

end

theorem eraseAll_eq_map : ∀ {es : List Expr}, eraseAll es = es.map eraseSpans
  | [] => rfl
  | e :: es => by rw [eraseAll, eraseAll_eq_map, List.map_cons]

theorem eraseFields_eq_map : ∀ {fs : List (String × Expr)},
    eraseFields fs = fs.map (Prod.map id eraseSpans)
  | [] => rfl
  | (n, e) :: fs => by
      rw [eraseFields, eraseFields_eq_map, List.map_cons]
      rfl

/-! ## Static types -/

mutual

theorem type?_eraseSpans : ∀ {e : Expr}, e.eraseSpans.type? = e.type?
  | .get _ _ _ | .literal _ _ | .call _ _ _ _ _ | .lambda _ _ _ | .list _ [] | .field _ _ _ _ => rfl
  | .binary _ .eq _ _ | .binary _ .or _ _ | .binary _ .gt _ _ => rfl
  | .binary _ .subtract l _ => type?_eraseSpans (e := l)
  | .negative _ e => type?_eraseSpans (e := e)
  | .list _ (e :: _) => congrArg (Option.map Ty.list) (type?_eraseSpans (e := e))
  | .struct _ fs => congrArg (Option.map Ty.record) (@fieldTypes?_eraseFields fs)
  | .offset _ t _ => congrArg (Option.map elementType) (type?_eraseSpans (e := t))

theorem fieldTypes?_eraseFields : ∀ {fs : List (String × Expr)},
    fieldTypes? (eraseFields fs) = fieldTypes? fs
  | [] => rfl
  | (n, e) :: fs => by
      rw [eraseFields, fieldTypes?, fieldTypes?, type?_eraseSpans, fieldTypes?_eraseFields]

end

/-! ## Rules -/

section

variable {a a' b b' : Expr}

theorem typed_congr (ha : a.type? = a'.type?) {x : Typed} (h : typed a = .ok x) :
    typed a' = .ok ⟨x.type, a'.span⟩ := by
  rw [typed_eq_ok] at h ⊢
  exact ⟨ha ▸ h.1, rfl⟩

theorem operatorRule_congr {op : BinaryOp} {l l' r r' : Typed} (hl : l.type = l'.type)
    (hr : r.type = r'.type) (h : Parser.operatorRule op l r = .ok ()) :
    Parser.operatorRule op l' r' = .ok () := by
  cases op with
  | eq =>
    have h : r.type.equal l.type = true := Rule.expectEqual_eq_ok.mp h
    rw [hl, hr] at h
    exact Rule.expectEqual_eq_ok.mpr h
  | or =>
    have h := Rule.disjunction_eq_ok.mp h
    rw [hl, hr] at h
    exact Rule.disjunction_eq_ok.mpr h
  | gt | subtract =>
    have h := Rule.arithmetic_eq_ok.mp h
    rw [hl, hr] at h
    exact Rule.arithmetic_eq_ok.mpr h

theorem joinRule_congr {op : BinaryOp} (ha : a.type? = a'.type?) (hb : b.type? = b'.type?)
    (h : joinRule op a b = .ok ()) : joinRule op a' b' = .ok () := by
  obtain ⟨l, r, hl, hr, h⟩ := Parser.joinRule_eq_ok.mp h
  exact Parser.joinRule_eq_ok.mpr
    ⟨_, _, typed_congr ha hl, typed_congr hb hr, operatorRule_congr (l := l) (r := r) rfl rfl h⟩

theorem negationRule_congr (ha : a.type? = a'.type?) (h : negationRule a = .ok ()) :
    negationRule a' = .ok () := by
  obtain ⟨x, hx, h⟩ := Parser.negationRule_eq_ok.mp h
  have h : x.type.isNumeric = true := Rule.expectNumeric_eq_ok.mp h
  exact Parser.negationRule_eq_ok.mpr
    ⟨_, typed_congr ha hx, Rule.expectNumeric_eq_ok.mpr h⟩

theorem elementRule_congr {first : Ty} {es es' : List Expr} (hes : es.map type? = es'.map type?)
    (h : elementRule first es = .ok ()) : elementRule first es' = .ok () := by
  rw [elementRule_eq_ok] at h ⊢
  intro c' hc'
  have hmem : c'.type? ∈ es.map type? := hes ▸ List.mem_map_of_mem hc'
  obtain ⟨c, hc, htype⟩ := List.mem_map.mp hmem
  obtain ⟨x, hx, h⟩ := h c hc
  have h := Rule.listElement_eq_ok.mp h
  exact ⟨_, typed_congr htype hx, Rule.listElement_eq_ok.mpr h⟩

theorem listRule_congr {es es' : List Expr} (hes : es.map type? = es'.map type?)
    (h : listRule es = .ok ()) : listRule es' = .ok () := by
  cases es with
  | nil =>
    obtain rfl : es' = [] := List.map_eq_nil_iff.mp hes.symm
    rfl
  | cons e es =>
    obtain ⟨e', es', rfl, he, hes⟩ := List.map_eq_cons_iff.mp hes.symm
    obtain ⟨t, ht, h⟩ := Parser.listRule_cons_eq_ok.mp h
    rw [staticType_eq_ok, ← he, ← staticType_eq_ok] at ht
    exact Parser.listRule_cons_eq_ok.mpr ⟨t, ht, elementRule_congr hes.symm h⟩

theorem fieldRule_congr {name : String} {ascribed : Option Ty} {span span' : Span} {t : Ty}
    (ha : a.type? = a'.type?) (h : fieldRule a name ascribed span = .ok t) :
    fieldRule a' name ascribed span' = .ok t := by
  obtain ⟨s, hs, h⟩ := Parser.fieldRule_eq_ok.mp h
  rw [staticType_eq_ok, ha, ← staticType_eq_ok] at hs
  exact Parser.fieldRule_eq_ok.mpr ⟨s, hs, Rule.fieldType_span h⟩

theorem offsetRule_congr {t : Ty} (ha : a.type? = a'.type?) (hb : b.type? = b'.type?)
    (h : offsetRule a b = .ok t) : offsetRule a' b' = .ok t := by
  obtain ⟨x, y, hx, hy, h⟩ := Parser.offsetRule_eq_ok.mp h
  have h := Rule.offsetType_eq_ok.mp h
  exact Parser.offsetRule_eq_ok.mpr
    ⟨_, _, typed_congr ha hx, typed_congr hb hy, Rule.offsetType_eq_ok.mpr h⟩

end

/-- **The rules do not see spans.** -/
theorem ruled_eraseSpans {T : Ty → Prop} {e : Expr} : e.eraseSpans.Ruled T ↔ e.Ruled T := by
  have htype : ∀ {e : Expr}, e.type? = e.eraseSpans.type? := type?_eraseSpans.symm
  have htypes : ∀ {es : List Expr}, es.map type? = (eraseAll es).map type? := by
    intro es
    rw [eraseAll_eq_map, List.map_map]
    exact List.map_congr_left fun e _ => htype
  cases e with
  | get | literal | call | lambda => exact Iff.rfl
  | binary => exact ⟨joinRule_congr htype.symm htype.symm, joinRule_congr htype htype⟩
  | negative => exact ⟨negationRule_congr htype.symm, negationRule_congr htype⟩
  | list => exact ⟨listRule_congr htypes.symm, listRule_congr htypes⟩
  | struct span fs =>
    rw [eraseSpans, Ruled, Ruled, eraseFields_eq_map, List.map_map, List.forall_mem_map]
    refine and_congr Iff.rfl (forall₂_congr fun f _ => ?_)
    constructor
    · rintro ⟨_, h⟩
      exact ⟨_, typed_congr htype.symm h⟩
    · rintro ⟨_, h⟩
      exact ⟨_, typed_congr htype h⟩
  | field =>
    exact exists₂_congr fun _ _ => and_congr_right fun _ =>
      ⟨fieldRule_congr htype.symm, fieldRule_congr htype⟩
  | offset =>
    exact exists_congr fun _ =>
      ⟨offsetRule_congr htype.symm htype.symm, offsetRule_congr htype htype⟩

theorem Ruled.of_eraseSpans {T : Ty → Prop} {e e' : Expr} (h : e'.eraseSpans = e.eraseSpans)
    (hrule : e.Ruled T) : e'.Ruled T := by
  rw [← ruled_eraseSpans, h]
  exact ruled_eraseSpans.mpr hrule

/-! ## Equality -/

/-- A node that is in `L` if it is a literal. -/
def Known (L : Literal → Prop) (e : Expr) : Prop := ∀ s v, e = literal s v → L v

/-- A literal is equal to itself, unless it is not a number. -/
theorem equal_literal {v : Literal} (h : ∀ x, v = .float x → x.isNaN = false) :
    v.equal v = true := by
  cases v with
  | float x =>
    have hnan := h x rfl
    change x.equal x = true
    simp [Binary64.equal, hnan]
  | string | int | bool => exact beq_self_eq_true _
  | none => rfl

theorem equalAll_of_forall {es es' : List Expr} (hmap : es'.map eraseSpans = es.map eraseSpans)
    (h : ∀ c ∈ es, ∀ c' : Expr, c'.eraseSpans = c.eraseSpans → c'.equal c = true) :
    equalAll es' es = true := by
  induction es generalizing es' with
  | nil =>
    obtain rfl := List.map_eq_nil_iff.mp hmap
    rfl
  | cons e es ih =>
    obtain ⟨e', es', rfl, he, hes⟩ := List.map_eq_cons_iff.mp hmap
    obtain ⟨hhead, htail⟩ := List.forall_mem_cons.mp h
    rw [equalAll, hhead e' he, ih hes htail]
    rfl

theorem equalFields_of_forall {fs fs' : List (String × Expr)}
    (hmap : eraseFields fs' = eraseFields fs)
    (h : ∀ f ∈ fs, ∀ c' : Expr, c'.eraseSpans = f.2.eraseSpans → c'.equal f.2 = true) :
    equalFields fs' fs = true := by
  induction fs generalizing fs' with
  | nil =>
    rw [eraseFields_eq_map, eraseFields_eq_map] at hmap
    obtain rfl := List.map_eq_nil_iff.mp hmap
    rfl
  | cons f fs ih =>
    obtain ⟨n, e⟩ := f
    cases fs' with
    | nil => cases hmap
    | cons f' fs' =>
      obtain ⟨n', e'⟩ := f'
      obtain ⟨⟨rfl, he⟩, hfs⟩ : (n' = n ∧ e'.eraseSpans = e.eraseSpans) ∧
          eraseFields fs' = eraseFields fs := by simpa [eraseFields] using hmap
      obtain ⟨hhead, htail⟩ := List.forall_mem_cons.mp h
      rw [equalFields, beq_self_eq_true, hhead e' he, ih hfs htail]
      rfl

/-- **Trees that differ in their spans only are equal.** -/
theorem equal_of_eraseSpans {e : Expr}
    (hliterals : Everywhere (Known fun v => v.equal v = true) e) :
    ∀ e' : Expr, e'.eraseSpans = e.eraseSpans → e'.equal e = true := by
  induction e using children_induction with
  | h e ih =>
  have ih : ∀ c ∈ e.children, ∀ c' : Expr, c'.eraseSpans = c.eraseSpans → c'.equal c = true :=
    fun c hc => ih c hc (hliterals.part hc)
  intro e' h
  cases e with
  | get span n t => cases e' with
    | get =>
      cases h
      simp [equal, Ty.equal_self]
    | _ => cases h
  | literal span v => cases e' with
    | literal =>
      cases h
      exact hliterals.here span v rfl
    | _ => cases h
  | binary span op l r => cases e' with
    | binary _ _ l' r' =>
      obtain ⟨rfl, hl, hr⟩ : _ ∧ l'.eraseSpans = _ ∧
          r'.eraseSpans = _ := by simpa [eraseSpans] using h
      have hl := ih l (by simp [children]) l' hl
      have hr := ih r (by simp [children]) r' hr
      simp [equal, hl, hr]
    | _ => cases h
  | negative span a => cases e' with
    | negative _ a' => exact ih a List.mem_cons_self a' (by simpa [eraseSpans] using h)
    | _ => cases h
  | call span t n ty as => cases e' with
    | call _ t' n' ty' as' =>
      obtain ⟨ht, rfl, rfl, has⟩ : t'.eraseSpans = _ ∧ _ ∧ _ ∧ eraseAll as' = _ := by
        simpa [eraseSpans] using h
      rw [eraseAll_eq_map, eraseAll_eq_map] at has
      have ht := ih t List.mem_cons_self t' ht
      have has := equalAll_of_forall has fun c hc => ih c (List.mem_cons_of_mem _ hc)
      simp [equal, ht, has, Ty.equal_self]
    | _ => cases h
  | lambda span ps b => cases e' with
    | lambda _ _ b' =>
      obtain ⟨rfl, hb⟩ : _ ∧ b'.eraseSpans = _ := by simpa [eraseSpans] using h
      have hb := ih b List.mem_cons_self b' hb
      simp [equal, hb]
    | _ => cases h
  | list span es => cases e' with
    | list _ es' =>
      have hes : eraseAll es' = eraseAll es := by simpa [eraseSpans] using h
      rw [eraseAll_eq_map, eraseAll_eq_map] at hes
      exact equalAll_of_forall hes ih
    | _ => cases h
  | struct span fs => cases e' with
    | struct _ fs' =>
      have hfs : eraseFields fs' = eraseFields fs := by simpa [eraseSpans] using h
      exact equalFields_of_forall hfs fun f hf => ih f.2 (List.mem_map_of_mem hf)
    | _ => cases h
  | field span t n ty => cases e' with
    | field _ t' n' ty' =>
      obtain ⟨ht, rfl, rfl⟩ : t'.eraseSpans = _ ∧ _ ∧ _ := by simpa [eraseSpans] using h
      have ht := ih t List.mem_cons_self t' ht
      simp [equal, ht, Ty.equal_self]
    | _ => cases h
  | offset span t k => cases e' with
    | offset _ t' k' =>
      obtain ⟨ht, hk⟩ : t'.eraseSpans = _ ∧ k'.eraseSpans = _ := by simpa [eraseSpans] using h
      have ht := ih t (by simp [children]) t' ht
      have hk := ih k (by simp [children]) k' hk
      simp [equal, ht, hk]
    | _ => cases h

end Expr

end Ascription
