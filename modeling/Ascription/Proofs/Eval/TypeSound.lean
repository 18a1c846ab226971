import Ascription.Proofs.Eval.Annotations
import Ascription.Proofs.Registry
import Ascription.Proofs.Value.Subtype

/-!
# Proofs/Eval/TypeSound — values fit the static types of their expressions

    rules (parser) ──▸ every node is Ruled ──▸ every value fits ──▸ no operator is misapplied

Three things the rules do not see are asked of the tree: no object is disguised as a built-in type,
a field is read of a struct type, and the elements of a longer list mention no map, struct or
object, whose subtypes are told by their names alone.
-/

namespace Ascription

open Ascription.Phrase

namespace Expr

/-! ## What the rules do not see -/

/-- A field is read of a struct type. -/
def ReadsStruct : Expr → Prop
  | field _ target _ _ => ∃ t, target.type? = some t ∧ t.fields?.isSome = true
  | _ => True

/-- Two or more elements of a list have plain types. -/
def PlainItems : Expr → Prop
  | list _ items => 2 ≤ items.length → ∀ e ∈ items, ∀ t, e.type? = some t → t.Plain
  | _ => True

/-- **A node on which the static types can be relied**; `T` holds of the types written on it. -/
structure Reliable (T : Ty → Prop) (e : Expr) : Prop where
  ruled : e.Ruled T
  reads : e.ReadsStruct
  items : e.PlainItems

namespace Reliable

variable {T : Ty → Prop}

/-- The rule of a field access names the type that the struct gives the field. -/
theorem field {span : Span} {target : Expr} {name : String} {type : Ty}
    (h : Reliable T (.field span target name type)) :
    ∃ t fields, target.type? = some t ∧ t.fields? = some fields ∧
      fields.lookup name = some type := by
  obtain ⟨t, ht, hstruct⟩ := h.reads
  obtain ⟨fields, hfields⟩ := Option.isSome_iff_exists.mp hstruct
  obtain ⟨t', ht', hlookup⟩ := h.ruled.wellTyped
  obtain rfl : t = t' := Option.some.inj (ht.symm.trans ht')
  exact ⟨t, fields, ht, hfields, hlookup fields hfields⟩

/-- The rule of a list literal: what is not the first element is a subtype of it, and plain. -/
theorem list {span : Span} {first : Expr} {others : List Expr}
    (h : Reliable T (.list span (first :: others))) :
    ∃ t, first.type? = some t ∧ ∀ e ∈ others, ∃ t', e.type? = some t' ∧
      t'.isSubtype t = true ∧ t'.Plain ∧ t.Plain := by
  obtain ⟨t, ht, helements⟩ := h.ruled.wellTyped
  refine ⟨t, ht, fun e he => ?_⟩
  have hlen : 2 ≤ (first :: others).length := by
    have := List.length_pos_of_mem he
    simp
    omega
  obtain ⟨t', ht', hsub⟩ := helements e he
  exact ⟨t', ht', hsub, h.items hlen e (List.mem_cons_of_mem _ he) _ ht',
    h.items hlen first List.mem_cons_self _ ht⟩

/-- The type of a struct literal has its fields, in their order. -/
theorem struct {span : Span} {fields : List (String × Expr)} {t : Ty}
    (h : Reliable T (.struct span fields)) (ht : type? (.struct span fields) = some t) :
    ∃ ts, t = .struct ts ∧ (fields.map Prod.fst).Nodup ∧
      ∀ p ∈ ts, ∃ f ∈ fields, f.1 = p.1 ∧ f.2.type? = some p.2 := by
  obtain ⟨ts, hts, rfl⟩ := Option.map_eq_some_iff.mp ht
  obtain ⟨hnames, hmem⟩ := fieldTypes?_eq_some hts
  have hnodup := h.ruled.1
  refine ⟨ts, ?_, hnodup, hmem⟩
  rw [Ty.record, Entries.ofList_of_nodup (hnames ▸ hnodup)]

end Reliable

/-- **Static types are candid** where the written ones are. -/
theorem type?_candid (e : Expr) :
    Everywhere (Reliable Ty.Candid) e → ∀ {t}, e.type? = some t → t.Candid := by
  induction e using children_induction with
  | h e ih =>
  intro he t ht
  have hpart : ∀ {c t}, c ∈ e.children → c.type? = some t → t.Candid := fun hc =>
    ih _ hc (he.part hc)
  cases e with
  | get =>
    cases ht
    exact he.here.ruled
  | literal span value =>
    cases ht
    cases value <;> exact .of_leaf (by simp [Literal.type]) rfl
  | binary span op left right =>
    cases op with
    | eq | or | gt =>
      cases ht
      exact .of_leaf (by simp) rfl
    | subtract => exact hpart List.mem_cons_self ht
  | negative => exact hpart List.mem_cons_self ht
  | call =>
    cases ht
    exact he.here.ruled
  | lambda => cases ht
  | list span items =>
    cases items with
    | nil =>
      cases ht
      exact .of_parts (by simp) (List.forall_mem_singleton.mpr (.of_leaf (by simp) rfl))
    | cons first others =>
      obtain ⟨s, hs, rfl⟩ := Option.map_eq_some_iff.mp ht
      have hc := hpart List.mem_cons_self hs
      exact .of_parts (by simp) (List.forall_mem_singleton.mpr hc)
  | struct span fields =>
    obtain ⟨ts, rfl, -, hmem⟩ := he.here.struct ht
    refine .of_parts (by simp) fun s hs => ?_
    obtain ⟨p, hp, rfl⟩ := List.mem_map.mp hs
    obtain ⟨f, hf, -, htype⟩ := hmem p hp
    exact hpart (List.mem_map_of_mem hf) htype
  | field span target name type =>
    cases ht
    obtain ⟨s, fields, hs, hfields, hl⟩ := he.here.field
    have hc := (hpart List.mem_cons_self hs).canonical
    rw [Ty.fields?_eq_some.mp hfields] at hc
    exact hc.parts (List.mem_map.mpr ⟨_, Entries.mem_of_lookup hl, rfl⟩)
  | offset span target key =>
    obtain ⟨s, k, element, hs, -, hr, hoffset, -⟩ := he.here.ruled.wellTyped
    obtain rfl : element = t := Option.some.inj (hoffset.symm.trans ht)
    have hc := (hpart List.mem_cons_self hs).canonical
    obtain ⟨hl, -⟩ | ⟨k', hm, -⟩ := hr
    · rw [hl] at hc
      exact hc.parts (by simp [Ty.parts])
    · rw [hm] at hc
      exact hc.parts (by simp [Ty.parts])

/-! ## Values -/

section Evaluation

variable {T : Ty → Prop} {call : Caller} {scope : Scope}

open Value

section Operators

variable {op : BinaryOp} {span : Span} {left right : Expr} {l r t : Ty} {a b v : Value}

theorem binary_fits (htakes : op.Takes l r) (ha : Fits l a) (hb : Fits r b)
    (hl : left.type? = some l) (ht : type? (.binary span op left right) = some t)
    (hv : Value.binary op a b = .ok v) : Fits t v := by
  cases op with
  | eq =>
    cases ht
    cases hv
    exact fits_bool.mpr ⟨_, rfl⟩
  | or =>
    cases ht
    exact fits_bool.mpr (disjunction_bool hv)
  | gt =>
    cases ht
    exact fits_bool.mpr (greater_bool hv)
  | subtract =>
    obtain rfl : l = t := Option.some.inj (hl.symm.trans ht)
    obtain ⟨hleft, hright, heq⟩ := htakes
    exact subtract_fits hleft hright heq ha hb hv

theorem binary_applied {e : RuntimeError} (htakes : op.Takes l r) (ha : Fits l a) (hb : Fits r b)
    (h : Value.binary op a b = .error e) : ¬ e.Misapplied := by
  cases op with
  | eq => cases h
  | or => exact disjunction_applied htakes.1 htakes.2 ha hb h
  | gt => exact greater_applied htakes.1 htakes.2.1 htakes.2.2 ha hb h
  | subtract => exact subtract_applied htakes.1 htakes.2.1 htakes.2.2 ha hb h

end Operators

/-- The elements of a list literal fit the type of its first one. -/
theorem list_fits {span : Span} {first : Expr} {others : List Expr} {t : Ty} {vs : List Value}
    {next next' : Nat} (he : Reliable T (.list span (first :: others))) (ht : first.type? = some t)
    (hparts : ∀ c ∈ first :: others, ∀ {t}, c.type? = some t → ∀ {n w n'},
      c.evalWith call scope n = .value w n' → Fits t w)
    (hvs : evalAll call scope (first :: others) next = .value vs next') :
    Fits (.list t) (.list vs) := by
  refine fits_list.mpr ⟨vs, rfl, fun w hw => ?_⟩
  obtain ⟨e, hmem, n, n', hew⟩ := mem_of_evalAll hvs w hw
  obtain ⟨s, hs, hothers⟩ := he.list
  obtain rfl : t = s := Option.some.inj (ht.symm.trans hs)
  obtain rfl | hother := List.mem_cons.mp hmem
  · exact hparts e hmem ht hew
  · obtain ⟨t', ht', hsub, hplain', hplain⟩ := hothers e hother
    exact included_of_isSubtype t' t hsub hplain'.tame hplain.tame w (hparts e hmem ht' hew)

/-- A struct literal has its fields once each, with values that fit. -/
theorem struct_fits {span : Span} {fields : List (String × Expr)} {t : Ty}
    {ws : List (String × Value)} {next next' : Nat} (he : Reliable T (.struct span fields))
    (ht : type? (.struct span fields) = some t)
    (hparts : ∀ f ∈ fields, ∀ {t}, f.2.type? = some t → ∀ {n w n'},
      f.2.evalWith call scope n = .value w n' → Fits t w)
    (hws : evalFields call scope fields next = .value ws next') : Fits t (.anonymous ws) := by
  obtain ⟨ts, rfl, hnodup, hmem⟩ := he.struct ht
  obtain ⟨hnames, hvalues⟩ := evalFields_spec hws
  have hnodup : (ws.map Prod.fst).Nodup := hnames ▸ hnodup
  refine fits_struct.mpr ⟨none, ws, by rw [anonymous, Entries.ofList_of_nodup hnodup], ?_⟩
  intro p hp
  obtain ⟨f, hf, hname, htype⟩ := hmem p hp
  obtain ⟨w, n, n', hw, hin⟩ := hvalues f hf
  exact ⟨w, Entries.lookup_of_mem hnodup (hname ▸ hin), hparts f hf htype hw⟩

/-- **The value of an expression fits its static type.** -/
theorem fits_of_evalWith (e : Expr) : Everywhere (Reliable T) e → ∀ {t}, e.type? = some t →
    ∀ {next v next'}, e.evalWith call scope next = .value v next' → Fits t v := by
  induction e using children_induction with
  | h e ih =>
  intro he t ht next v next' hv
  have hpart : ∀ {c t n w n'}, c ∈ e.children → c.type? = some t →
      c.evalWith call scope n = .value w n' → Fits t w := fun hc hct hw =>
    ih _ hc (he.part hc) hct hw
  cases e with
  | get span name type =>
    cases ht
    exact get_fits hv
  | literal span value =>
    cases ht
    cases hv
    exact fits_ofLiteral
  | binary span op left right =>
    obtain ⟨a, n, ha, hv⟩ := Run.bind_eq_value.mp hv
    obtain ⟨b, n', hb, hv⟩ := Run.bind_eq_value.mp hv
    obtain ⟨x, y, hx, hy, htakes⟩ := he.here.ruled.wellTyped
    exact binary_fits htakes (hpart (by simp [children]) hx ha)
      (hpart (by simp [children]) hy hb) hx
      ht (raiseAt_eq_value.mp hv).1
  | negative span operand =>
    obtain ⟨a, n, ha, hv⟩ := Run.bind_eq_value.mp hv
    obtain ⟨x, hx, hnumeric⟩ := he.here.ruled.wellTyped
    obtain rfl : x = t := Option.some.inj (hx.symm.trans ht)
    exact negate_fits hnumeric (hpart List.mem_cons_self hx ha) (raiseAt_eq_value.mp hv).1
  | call span target name result args =>
    cases ht
    exact call_fits hv
  | lambda => cases ht
  | list span items =>
    obtain ⟨vs, n, hvs, hv⟩ := Run.bind_eq_value.mp hv
    cases hv
    cases items with
    | nil =>
      cases ht
      cases hvs
      exact fits_list.mpr ⟨[], rfl, nofun⟩
    | cons first others =>
      obtain ⟨s, hs, rfl⟩ := Option.map_eq_some_iff.mp ht
      exact list_fits he.here hs (fun c hc _ hct => hpart hc hct) hvs
  | struct span fields =>
    obtain ⟨ws, n, hws, hv⟩ := Run.bind_eq_value.mp hv
    cases hv
    exact struct_fits he.here ht (fun f hf _ hft => hpart (List.mem_map_of_mem hf) hft) hws
  | field span target name type =>
    cases ht
    obtain ⟨s, fields, hs, hfields, hl⟩ := he.here.field
    exact field_fits hfields hl (fun w n => hpart List.mem_cons_self hs) hv
  | offset span target key =>
    obtain ⟨a, n, ha, hv⟩ := Run.bind_eq_value.mp hv
    obtain ⟨k, n', -, hv⟩ := Run.bind_eq_value.mp hv
    obtain ⟨s, _, element, hs, -, hr, hoffset, -⟩ := he.here.ruled.wellTyped
    obtain rfl : element = t := Option.some.inj (hoffset.symm.trans ht)
    exact index_fits (hr.imp And.left (Exists.imp fun _ => And.left))
      (hpart List.mem_cons_self hs ha)
      (raiseAt_eq_value.mp hv).1

theorem not_misapplied_of_raiseAt {α : Type} {span : Span} {outcome : Except RuntimeError α}
    {n n' : Nat} {err : EvalError} (h : raiseAt span outcome n = .error err n')
    (ho : ∀ r, outcome = .error r → ¬ r.Misapplied) : ¬ err.error.Misapplied := by
  obtain ⟨r, hr, rfl, -⟩ := raiseAt_eq_error.mp h
  rw [misapplied_raisedAt]
  exact ho r hr

/-- **No operator is misapplied** to the values of its operands. -/
theorem not_misapplied {e : Expr} (he : Everywhere (Reliable Ty.Candid) e) (hcall : e.form ≠ .call)
    {next : Nat} {vs : List Value} {n : Nat}
    (hvs : evalAll call scope e.children next = .value vs n)
    {err : EvalError} {n' : Nat} (h : e.evalWith call scope next = .error err n') :
    ¬ err.error.Misapplied := by
  have hfits : ∀ {c t n w n'}, c ∈ e.children → c.type? = some t →
      c.evalWith call scope n = .value w n' → Fits t w := fun hc hct hw =>
    fits_of_evalWith _ (he.part hc) hct hw
  cases e with
  | get span name type =>
    rw [evalWith] at h
    cases hvalue : scope.value? name with
    | none =>
      rw [hvalue] at h
      refine not_misapplied_of_raiseAt h fun r hr => ?_
      cases hr
      exact id
    | some w =>
      rw [hvalue] at h
      exact not_misapplied_of_raiseAt h fun r hr => assert_applied hr
  | literal => cases h
  | binary span op left right =>
    obtain ⟨a, b, n₁, ha, hb, rfl⟩ := evalAll_two hvs
    rw [evalWith, Run.bind_value ha, Run.bind_value hb] at h
    obtain ⟨x, y, hx, hy, htakes⟩ := he.here.ruled.wellTyped
    have ha := hfits (by simp [children]) hx ha
    have hb := hfits (by simp [children]) hy hb
    exact not_misapplied_of_raiseAt h fun r hr => binary_applied htakes ha hb hr
  | negative span operand =>
    obtain ⟨a, ha, rfl⟩ := evalAll_one hvs
    rw [evalWith, Run.bind_value ha] at h
    obtain ⟨x, hx, hnumeric⟩ := he.here.ruled.wellTyped
    have ha := hfits List.mem_cons_self hx ha
    exact not_misapplied_of_raiseAt h fun r hr => negate_applied hnumeric ha hr
  | call => exact absurd rfl hcall
  | lambda => cases h
  | list span items =>
    have hitems : evalAll call scope items next = .value vs n := hvs
    rw [evalWith, Run.bind_value hitems] at h
    cases h
  | struct span fields =>
    obtain ⟨ws, hws⟩ := evalFields_of_evalAll hvs
    rw [evalWith, Run.bind_value hws] at h
    cases h
  | field span target name type =>
    obtain ⟨a, ha, rfl⟩ := evalAll_one hvs
    rw [evalWith, Run.bind_value ha] at h
    obtain ⟨s, fields, hs, hfields, hl⟩ := he.here.field
    obtain ⟨w, hw, -⟩ := fieldOf_fits hfields hl (hfits List.mem_cons_self hs ha)
    rw [hw] at h
    cases h
  | offset span target key =>
    obtain ⟨a, b, n₁, ha, hb, rfl⟩ := evalAll_two hvs
    rw [evalWith, Run.bind_value ha, Run.bind_value hb] at h
    obtain ⟨s, k, element, hs, hk, hr, -⟩ := he.here.ruled.wellTyped
    have hkey := type?_candid key (he.part (by simp [children])) hk
    have ha := hfits (by simp [children]) hs ha
    have hb := hfits (by simp [children]) hk hb
    exact not_misapplied_of_raiseAt h fun r hr' =>
      index_applied hkey (hr.imp_right (Exists.imp fun _ => And.left)) ha hb hr'

end Evaluation

end Expr

open Ascription.Expr

/-- **Type soundness.** -/
theorem parseWith_type_sound {source : String} {r : Registry} {ds : Declarations} {e : Expr}
    (h : parseWith source r ds = .ok e) (haliases : ∀ a ∈ r.aliases, a.2.Candid)
    (hdeclared : ∀ d ∈ ds, d.type.Candid)
    (hfields : ∀ span target name type, Within (.field span target name type) e →
      ∃ t, target.type? = some t ∧ t.fields?.isSome = true)
    (hlists : ∀ span items, Within (.list span items) e → 2 ≤ items.length →
      ∀ x ∈ items, ∀ t, x.type? = some t → t.Plain)
    (host : Host) (depth : Nat) (scope : Scope) {n : Expr} (hn : Within n e)
    (hform : n.form ≠ .lambda) (next : Nat) :
    (∀ v next', n.evaluate host depth scope next = .value v next' →
      ∃ t, n.type? = some t ∧ v.check t = .ok ()) ∧
    (n.form ≠ .call → ∀ vs next',
      evalAll (Code.callAt host depth) scope n.children next = .value vs next' →
        ∀ err next'', n.evaluate host depth scope next = .error err next'' →
          ¬ err.error.Misapplied) := by
  obtain ⟨⟨e', ds'⟩, hp, rfl⟩ := Except.map_eq_ok.mp h
  obtain ⟨tokens, -, u, -, hu⟩ := parseProgram_eq_ok.mp hp
  obtain ⟨hruled, -⟩ := elaborate_ruled (Registry.resolve_candid haliases) u hdeclared hu
  have he : Everywhere (Reliable Ty.Candid) e' := by
    intro m hm
    refine ⟨hruled m hm, ?_, ?_⟩
    · cases m with
      | field span target name type => exact hfields span target name type hm
      | _ => trivial
    · cases m with
      | list span items => exact hlists span items hm
      | _ => trivial
  have hne := he.within hn
  refine ⟨fun v next' hv => ?_, fun hcall vs next' hvs err next'' herr => ?_⟩
  · obtain ⟨t, ht⟩ := type?_isSome hne.here.ruled hform
    exact ⟨t, ht, fits_of_evalWith n hne ht hv⟩
  · exact not_misapplied hne hcall hvs herr

/-- A list whose first element is read from a struct. -/
theorem parseWith_type_sound_list : ∃ e, parseWith "[\x7bn: 9\x7d.n, 3]" .initial [] = .ok e ∧
    ∀ host depth next, (∀ v next', e.evaluate host depth Scope.root next = .value v next' →
        ∃ t, e.type? = some t ∧ v.check t = .ok ()) ∧
      (e.form ≠ .call → ∀ vs next',
        evalAll (Code.callAt host depth) Scope.root e.children next = .value vs next' →
          ∀ err next'', e.evaluate host depth Scope.root next = .error err next'' →
            ¬ err.error.Misapplied) := by
  have h : parseWith "[\x7bn: 9\x7d.n, 3]" .initial [] = .ok (.list ⟨⟨1, 1⟩, ⟨1, 14⟩⟩
      [.field ⟨⟨1, 2⟩, ⟨1, 10⟩⟩
        (.struct ⟨⟨1, 2⟩, ⟨1, 8⟩⟩ [("n", .literal ⟨⟨1, 6⟩, ⟨1, 7⟩⟩ (.int 9))]) "n" .int,
        .literal ⟨⟨1, 12⟩, ⟨1, 13⟩⟩ (.int 3)]) := by
    decide +kernel
  have hall : ∀ {e}, parseWith "[\x7bn: 9\x7d.n, 3]" .initial [] = .ok e →
      Everywhere (fun m => m.ReadsStruct ∧ m.PlainItems) e := by
    intro e he
    cases h.symm.trans he
    have hint : Ty.int.Plain := Ty.not_mentions.mpr ⟨id, List.forall_mem_nil _⟩
    have hliteral : ∀ {span value}, Everywhere (fun m => m.ReadsStruct ∧ m.PlainItems)
        (.literal span value) := .node ⟨trivial, trivial⟩ (List.forall_mem_nil _)
    refine .node ⟨trivial, fun _ => ?_⟩ ?_
    · simp only [List.forall_mem_cons]
      refine ⟨fun t ht => ?_, fun t ht => ?_, List.forall_mem_nil _⟩ <;> cases ht <;> exact hint
    · refine List.forall_mem_cons.mpr ⟨.node ⟨⟨_, rfl, rfl⟩, trivial⟩ ?_,
        List.forall_mem_singleton.mpr hliteral⟩
      exact List.forall_mem_singleton.mpr
        (.node ⟨trivial, trivial⟩ (List.forall_mem_singleton.mpr hliteral))
  exact ⟨_, h, fun host depth next => parseWith_type_sound h (List.forall_mem_nil _)
    (List.forall_mem_nil _) (fun _ _ _ _ hw => (hall h _ hw).1) (fun _ _ hw => (hall h _ hw).2) host
    depth Scope.root .refl (by simp [form]) next⟩

end Ascription
