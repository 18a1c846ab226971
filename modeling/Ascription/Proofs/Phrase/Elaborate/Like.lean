import Ascription.Proofs.Declarations
import Ascription.Proofs.Expr.Like
import Ascription.Proofs.Phrase.Elaborate
import Ascription.Proofs.Phrase.Like
import Ascription.Proofs.Registry

/-!
# Proofs/Phrase/Elaborate/Like — the second pass does not see spans

    u ~ v ,  ds ~ es ,  r ≤ r'   ──▸   elaborate r u ds  ~  elaborate r' v es

Phrases that differ in their spans, over tables with the same types, in registries of which the
second knows the aliases of the first: where one second pass succeeds, so does the other, with a
tree that differs in its spans only.
-/

namespace Ascription

/-- **A registry that knows the aliases of another**, with the same targets. -/
def Registry.Extends (r' r : Registry) : Prop := ∀ n t, r.alias? n = some t → r'.alias? n = some t

theorem Registry.Extends.refl (r : Registry) : r.Extends r := fun _ _ h => h

/-! ## Types -/

namespace Registry

variable {S : Span → Span → Prop} {r r' : Registry}

mutual

/-- **Written types that are alike denote one type.** -/
theorem resolve_like (hr : r'.Extends r) : ∀ {w w' : TypeExpr} {t : Ty}, w.Like S w' →
    r.resolve w = .ok t → r'.resolve w' = .ok t
  | .named _ name _, .named _ _ _, t, .named _ args, h => by
    rw [resolve_named_eq_ok] at h ⊢
    obtain ⟨rfl, hp⟩ | ⟨wrap, arg, s, hw, rfl, hs, rfl⟩ |
      ⟨k, v, key, value, hm, rfl, hk, hv, hkey, rfl⟩ | ⟨rfl, hp, hw, hm, halias⟩ := h
    · cases args
      exact .inl ⟨rfl, hp⟩
    · obtain ⟨⟩ | ⟨harg, ⟨⟩⟩ := args
      exact .inr (.inl ⟨wrap, _, s, hw, rfl, resolve_like hr harg hs, rfl⟩)
    · obtain ⟨⟩ | ⟨hk', ⟨⟩ | ⟨hv', ⟨⟩⟩⟩ := args
      exact .inr (.inr (.inl ⟨_, _, key, value, hm, rfl, resolve_like hr hk' hk,
        resolve_like hr hv' hv, hkey, rfl⟩))
    · cases args
      exact .inr (.inr (.inr ⟨rfl, hp, hw, hm, hr name t halias⟩))
  | _, _, _, .func _ params result, h => by
    obtain ⟨ps, hps, h⟩ := Except.bind_eq_ok.mp h
    obtain ⟨res, hres, h⟩ := Except.bind_eq_ok.mp h
    exact Except.bind_eq_ok.mpr ⟨ps, resolveAll_like hr params hps,
      Except.bind_eq_ok.mpr ⟨res, resolve_like hr result hres, h⟩⟩
  | _, _, _, .struct _ fields, h => by
    obtain ⟨fs, hfs, h⟩ := Except.bind_eq_ok.mp h
    exact Except.bind_eq_ok.mpr ⟨fs, resolveFields_like hr fields hfs, h⟩

theorem resolveAll_like (hr : r'.Extends r) : ∀ {ws ws' : List TypeExpr} {ts : List Ty},
    List.Forall₂ (TypeExpr.Like S) ws ws' → r.resolveAll ws = .ok ts → r'.resolveAll ws' = .ok ts
  | _, _, _, .nil, h => h
  | _, _, _, .cons hw hws, h => by
    obtain ⟨t, ht, h⟩ := Except.bind_eq_ok.mp h
    obtain ⟨ts, hts, h⟩ := Except.bind_eq_ok.mp h
    exact Except.bind_eq_ok.mpr ⟨t, resolve_like hr hw ht,
      Except.bind_eq_ok.mpr ⟨ts, resolveAll_like hr hws hts, h⟩⟩

theorem resolveFields_like (hr : r'.Extends r) :
    ∀ {fs fs' : List (String × TypeExpr × Span)} {done ts : List (String × Ty)},
      Entries.Related (Prod.RProd (TypeExpr.Like S) S) fs fs' →
      r.resolveFields done fs = .ok ts → r'.resolveFields done fs' = .ok ts
  | _, _, _, _, .nil, h => h
  | _, _, _, _, .cons (.intro hw _) hfs, h => by
    rw [resolveFields] at h ⊢
    split at h
    · cases h
    case isFalse hnew =>
      obtain ⟨t, ht, h⟩ := Except.bind_eq_ok.mp h
      rw [if_neg hnew]
      exact Except.bind_eq_ok.mpr ⟨t, resolve_like hr hw ht, resolveFields_like hr hfs h⟩

end

end Registry

/-! ## Expressions -/

/-- A relation that is kept when spans are put together. -/
def Span.Merges (S : Span → Span → Prop) : Prop :=
  ∀ {a a' b b'}, S a a' → S b b' → S (a.merge b) (a'.merge b')

namespace Phrase

open Ascription.Expr (Everywhere Known children)

variable {S : Span → Span → Prop} {L : Literal → Prop} {r r' : Registry} {ds es ds' : Declarations}

theorem annotated_like (hr : r'.Extends r) {w w' : Option TypeExpr}
    (hw : Option.Rel (TypeExpr.Like S) w w') {t : Option Ty} (h : annotated r w = .ok t) :
    annotated r' w' = .ok t := by
  cases hw with
  | none => exact h
  | some hw =>
    obtain ⟨t, ht, rfl⟩ := Except.map_eq_ok.mp h
    exact Except.map_eq_ok.mpr ⟨t, Registry.resolve_like hr hw ht, rfl⟩

/-- **A tree and its copy** with other spans, all of its literals in `L`. -/
structure Copy (S : Span → Span → Prop) (L : Literal → Prop) (x y : Expr) : Prop where
  like : x.Like S y
  known : x.Everywhere (Known L)

theorem Copy.all {xs ys : List Expr} (h : List.Forall₂ (Copy S L) xs ys) :
    List.Forall₂ (Expr.Like S) xs ys ∧ ∀ x ∈ xs, x.Everywhere (Known L) :=
  ((List.forall₂_and_left _ _).mp (h.imp fun _ _ h => ⟨h.known, h.like⟩)).symm

mutual

/-- **Phrases that are alike are elaborated alike.** -/
theorem elaborate_like (hr : r'.Extends r) (hmerge : Span.Merges S) :
    ∀ {u v : Phrase}, u.Like S L v → ∀ {ds es ds' : Declarations} {x : Expr},
      ds.types = es.types → elaborate r u ds = .ok (x, ds') →
      ∃ y es', elaborate r' v es = .ok (y, es') ∧ ds'.types = es'.types ∧ Copy S L x y
  | _, _, .declaration span type body, ds, es, ds', x, hds, h => by
    obtain ⟨t, ds₁, ht, hdeclare, h⟩ := elaborate_declaration.mp h
    obtain ⟨es₁, hdeclare', hds₁⟩ := Declarations.declare_congr hds hdeclare
    obtain ⟨y, es', hy, hds', hcopy⟩ := elaborate_like hr hmerge body hds₁ h
    exact ⟨y, es',
      elaborate_declaration.mpr ⟨t, es₁, Registry.resolve_like hr type ht, hdeclare', hy⟩,
      hds', hcopy⟩
  | _, _, .reference span .none, ds, es, ds', x, hds, h => by
    obtain ⟨d, hd, rfl, rfl⟩ := elaborate_reference.mp h
    obtain ⟨d', hd', htype⟩ := Declarations.find?_eq_some_congr hds hd
    exact ⟨_, _, elaborate_reference.mpr ⟨d', hd', rfl, rfl⟩, hds, htype ▸ .get span,
      .node nofun nofun⟩
  | _, _, .reference span (.some type), ds, es, ds', x, hds, h => by
    obtain ⟨t, t', ht, hcheck, rfl, rfl⟩ := elaborate_annotated.mp h
    exact ⟨_, _, elaborate_annotated.mpr ⟨t, t', Registry.resolve_like hr type ht,
      Declarations.checkAnnotated_congr hds hcheck, rfl, rfl⟩, hds, .get span, .node nofun nofun⟩
  | _, _, .literal span known, ds, es, ds', x, hds, h => by
    obtain ⟨rfl, rfl⟩ := elaborate_literal.mp h
    refine ⟨_, _, elaborate_literal.mpr ⟨rfl, rfl⟩, hds, .literal span, .node ?_ nofun⟩
    rintro _ _ ⟨⟩
    exact known
  | _, _, .binary left right, ds, es, ds', x, hds, h => by
    obtain ⟨a, ds₁, b, ha, hb, hrule, rfl⟩ := elaborate_binary.mp h
    obtain ⟨a', es₁, ha', hds₁, hleft⟩ := elaborate_like hr hmerge left hds ha
    obtain ⟨b', es', hb', hds', hright⟩ := elaborate_like hr hmerge right hds₁ hb
    have hrule' := Expr.joinRule_congr hleft.like.type?_eq hright.like.type?_eq hrule
    refine ⟨_, _, elaborate_binary.mpr ⟨a', es₁, b', ha', hb', hrule', rfl⟩, hds',
      .binary (hmerge hleft.like.span hright.like.span) hleft.like hright.like, .node nofun ?_⟩
    simpa [children] using ⟨hleft.known, hright.known⟩
  | _, _, .negative start operand, ds, es, ds', x, hds, h => by
    obtain ⟨a, ha, hrule, rfl⟩ := elaborate_negative.mp h
    obtain ⟨a', es', ha', hds', hcopy⟩ := elaborate_like hr hmerge operand hds ha
    exact ⟨_, _,
      elaborate_negative.mpr ⟨a', ha', Expr.negationRule_congr hcopy.like.type?_eq hrule, rfl⟩,
      hds', .negative (hmerge start hcopy.like.span) hcopy.like,
      .node nofun (List.forall_mem_singleton.mpr hcopy.known)⟩
  | _, _, .call target result args stop, ds, es, ds', x, hds, h => by
    obtain ⟨a, ds₁, t, xs, ha, ht, hxs, rfl⟩ := elaborate_call.mp h
    obtain ⟨a', es₁, ha', hds₁, hcopy⟩ := elaborate_like hr hmerge target hds ha
    obtain ⟨ys, es', hys, hds', hcopies⟩ := elaborateAll_like hr hmerge args hds₁ .nil hxs
    obtain ⟨hlike, hknown⟩ := Copy.all hcopies
    exact ⟨_, _,
      elaborate_call.mpr ⟨a', es₁, t, ys, ha', Registry.resolve_like hr result ht, hys, rfl⟩,
      hds', .call (hmerge hcopy.like.span stop) hcopy.like hlike,
      .node nofun (List.forall_mem_cons.mpr ⟨hcopy.known, hknown⟩)⟩
  | _, _, .lambda start body, ds, es, ds', x, hds, h => by
    obtain ⟨a, ha, rfl⟩ := elaborate_lambda.mp h
    obtain ⟨a', es', ha', hds', hcopy⟩ := elaborate_like hr hmerge body hds ha
    exact ⟨_, _, elaborate_lambda.mpr ⟨a', ha', rfl⟩, hds',
      .lambda (hmerge start hcopy.like.span) hcopy.like,
      .node nofun (List.forall_mem_singleton.mpr hcopy.known)⟩
  | _, _, .list span items, ds, es, ds', x, hds, h => by
    obtain ⟨xs, hxs, hrule, rfl⟩ := elaborate_list.mp h
    obtain ⟨ys, es', hys, hds', hcopies⟩ := elaborateAll_like hr hmerge items hds .nil hxs
    obtain ⟨hlike, hknown⟩ := Copy.all hcopies
    have hrule' := Expr.listRule_congr (Expr.map_type?_eq_of_like hlike) hrule
    exact ⟨_, _, elaborate_list.mpr ⟨ys, hys, hrule', rfl⟩, hds', .list span hlike,
      .node nofun hknown⟩
  | _, _, .struct span fields, ds, es, ds', x, hds, h => by
    obtain ⟨xs, hxs, rfl⟩ := elaborate_struct.mp h
    obtain ⟨ys, es', hys, hds', hcopies⟩ := elaborateFields_like hr hmerge fields hds .nil hxs
    exact ⟨_, _, elaborate_struct.mpr ⟨ys, hys, rfl⟩, hds',
      .struct span (hcopies.imp fun _ _ h => h.like), .node nofun (Copy.all hcopies.values).2⟩
  | _, _, .field target span ascribed stop, ds, es, ds', x, hds, h => by
    obtain ⟨a, t, t', ha, ht, hrule, rfl⟩ := elaborate_field.mp h
    obtain ⟨a', es', ha', hds', hcopy⟩ := elaborate_like hr hmerge target hds ha
    exact ⟨_, _, elaborate_field.mpr ⟨a', t, t', ha', annotated_like hr ascribed ht,
      Expr.fieldRule_congr hcopy.like.type?_eq hrule, rfl⟩, hds',
      .field (hmerge hcopy.like.span stop) hcopy.like,
      .node nofun (List.forall_mem_singleton.mpr hcopy.known)⟩
  | _, _, .offset target key stop, ds, es, ds', x, hds, h => by
    obtain ⟨a, ds₁, k, t, ha, hk, hrule, rfl⟩ := elaborate_offset.mp h
    obtain ⟨a', es₁, ha', hds₁, htarget⟩ := elaborate_like hr hmerge target hds ha
    obtain ⟨k', es', hk', hds', hkey⟩ := elaborate_like hr hmerge key hds₁ hk
    have hrule' := Expr.offsetRule_congr htarget.like.type?_eq hkey.like.type?_eq hrule
    refine ⟨_, _, elaborate_offset.mpr ⟨a', es₁, k', t, ha', hk', hrule', rfl⟩, hds',
      .offset (hmerge htarget.like.span stop) htarget.like hkey.like, .node nofun ?_⟩
    simpa [children] using ⟨htarget.known, hkey.known⟩

theorem elaborateAll_like (hr : r'.Extends r) (hmerge : Span.Merges S) :
    ∀ {us vs : List Phrase}, List.Forall₂ (Like S L) us vs →
      ∀ {ds es ds' : Declarations} {done done' xs : List Expr}, ds.types = es.types →
      List.Forall₂ (Copy S L) done done' → elaborateAll r done us ds = .ok (xs, ds') →
      ∃ ys es', elaborateAll r' done' vs es = .ok (ys, es') ∧ ds'.types = es'.types ∧
        List.Forall₂ (Copy S L) xs ys
  | _, _, .nil, ds, es, ds', done, done', xs, hds, hdone, h => by
    cases h
    exact ⟨_, _, rfl, hds, hdone⟩
  | _, _, .cons hu hus, ds, es, ds', done, done', xs, hds, hdone, h => by
    obtain ⟨⟨x, ds₁⟩, hx, h⟩ := Except.bind_eq_ok.mp h
    obtain ⟨y, es₁, hy, hds₁, hcopy⟩ := elaborate_like hr hmerge hu hds hx
    obtain ⟨ys, es', hys, hds', hcopies⟩ := elaborateAll_like hr hmerge hus hds₁
      (List.rel_append hdone (.cons hcopy .nil)) h
    exact ⟨ys, es', Except.bind_eq_ok.mpr ⟨(y, es₁), hy, hys⟩, hds', hcopies⟩

theorem elaborateFields_like (hr : r'.Extends r) (hmerge : Span.Merges S) :
    ∀ {us vs : List (String × Span × Phrase)}, Entries.Related (Prod.RProd S (Like S L)) us vs →
      ∀ {ds es ds' : Declarations} {done done' xs : List (String × Expr)}, ds.types = es.types →
      Entries.Related (Copy S L) done done' → elaborateFields r done us ds = .ok (xs, ds') →
      ∃ ys es', elaborateFields r' done' vs es = .ok (ys, es') ∧ ds'.types = es'.types ∧
        Entries.Related (Copy S L) xs ys
  | _, _, .nil, ds, es, ds', done, done', xs, hds, hdone, h => by
    cases h
    exact ⟨_, _, rfl, hds, hdone⟩
  | _, _, .cons (.intro _ hu) hus, ds, es, ds', done, done', xs, hds, hdone, h => by
    rw [elaborateFields] at h ⊢
    split at h
    · cases ruled_eq_ok.mp h
    case isFalse hnew =>
      obtain ⟨⟨x, ds₁⟩, hx, h⟩ := Except.bind_eq_ok.mp h
      obtain ⟨t, ht, h⟩ := Except.bind_eq_ok.mp h
      obtain ⟨y, es₁, hy, hds₁, hcopy⟩ := elaborate_like hr hmerge hu hds hx
      obtain ⟨ys, es', hys, hds', hcopies⟩ := elaborateFields_like hr hmerge hus hds₁
        (hdone.append (.cons hcopy .nil)) h
      have ht' := Expr.typed_congr hcopy.like.type?_eq (ruled_eq_ok.mp ht)
      rw [if_neg (Entries.contains_congr hdone.keys_eq ▸ hnew)]
      exact ⟨ys, es', Except.bind_eq_ok.mpr ⟨(y, es₁), hy, Except.bind_eq_ok.mpr
        ⟨_, ruled_eq_ok.mpr ht', hys⟩⟩, hds', hcopies⟩

end

end Phrase

end Ascription
