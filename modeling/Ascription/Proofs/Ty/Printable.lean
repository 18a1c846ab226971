import Ascription.Proofs.Parser.Type
import Ascription.Proofs.Registry
import Ascription.Proofs.Token.Lexes

/-!
# Proofs/Ty/Printable — the types that a text can write

    text ──▸ written type, its names made of name characters ──▸ printable type

A type that a text was read as is built from the built-in types and the aliases, with field
names that the text spelled.
-/

namespace Ascription

open Lexer (IsName)

/-- **A type that can be written**, with the aliases of a registry. -/
inductive Ty.Printable (r : Registry) : Ty → Prop
  | primitive {n t} (h : Registry.primitive? n = Option.some t) : Printable r t
  | wrapper {n wrap t} (h : Registry.wrapper? n = Option.some wrap) (arg : Printable r t) :
      Printable r (wrap t)
  | map {k v} (isKey : k.isKey = true) (key : Printable r k) (value : Printable r v) :
      Printable r (.map k v)
  | func {res ps} (result : Printable r res) (params : ∀ p ∈ ps, Printable r p) :
      Printable r (.func res ps)
  | struct {fs} (nodup : (fs.map Prod.fst).Nodup) (names : ∀ f ∈ fs, IsName f.1.toList)
      (types : ∀ f ∈ fs, Printable r f.2) : Printable r (.struct fs)
  | aliased {n t} (name : IsName n.toList) (primitive : Registry.primitive? n = Option.none)
      (wrapper : Registry.wrapper? n = Option.none) (map : n ≠ "map")
      (target : r.alias? n = Option.some (.aliased n t)) : Printable r (.aliased n t)

/-- A written type whose names are made of name characters. -/
inductive TypeExpr.Spelled : TypeExpr → Prop
  | named {span n as} (name : IsName n.toList) (args : ∀ a ∈ as, Spelled a) :
      Spelled (.named span n as)
  | func {span ps res} (params : ∀ p ∈ ps, Spelled p) (result : Spelled res) :
      Spelled (.func span ps res)
  | struct {span fs} (names : ∀ f ∈ fs, IsName f.1.toList) (types : ∀ f ∈ fs, Spelled f.2.1) :
      Spelled (.struct span fs)

/-- The names among the tokens are made of name characters. -/
def Named (tokens : List Token) : Prop := ∀ t ∈ tokens, ∀ n, t.kind = .name n → IsName n.toList

theorem Named.tail {t : Token} {ts : List Token} (h : Named (t :: ts)) : Named ts :=
  fun t ht => h t (List.mem_cons_of_mem _ ht)

theorem Named.head {s : Span} {n : String} {ts : List Token} (h : Named (⟨.name n, s⟩ :: ts)) :
    IsName n.toList := h _ List.mem_cons_self n rfl

namespace Grammar

open TypeExpr

mutual

theorem TypeName.spelled :
    ∀ {c w c'}, TypeName c w c' → Named c.tokens → w.Spelled ∧ Named c'.tokens
  | _, _, _, .name _ _, h => ⟨.named h.head nofun, h.tail⟩
  | _, _, _, .applied list, h => by
      obtain ⟨hargs, h'⟩ := list.spelled_types h.tail.tail
      exact ⟨.named h.head hargs, h'.tail⟩
  | _, _, _, .func list returns, h => by
      obtain ⟨hparams, h'⟩ := list.spelled_types h.tail.tail
      obtain ⟨hresult, h'⟩ := returns.spelled h'.tail.tail
      exact ⟨.func hparams hresult, h'⟩
  | _, _, _, .struct list, h => by
      obtain ⟨hfields, h'⟩ := list.spelled_fields h.tail
      exact ⟨.struct (fun f hf => (hfields f hf).1) fun f hf => (hfields f hf).2, h'.tail⟩

theorem TypeField.spelled : ∀ {c x c'}, TypeField c x c' → Named c.tokens →
    (IsName x.1.toList ∧ x.2.1.Spelled) ∧ Named c'.tokens
  | _, _, _, .field type, h => by
      obtain ⟨ht, h'⟩ := type.spelled h.tail.tail
      exact ⟨⟨h.head, ht⟩, h'⟩

theorem Listed.spelled_types : ∀ {c ws c'}, Listed TypeName c ws c' → Named c.tokens →
    (∀ w ∈ ws, w.Spelled) ∧ Named c'.tokens
  | _, _, _, .none, h => ⟨nofun, h⟩
  | _, _, _, .one item, h => by
      obtain ⟨hw, h'⟩ := item.spelled h
      exact ⟨List.forall_mem_cons.mpr ⟨hw, nofun⟩, h'⟩
  | _, _, _, .more item rest, h => by
      obtain ⟨hw, h'⟩ := item.spelled h
      obtain ⟨hws, h'⟩ := rest.spelled_types h'.tail
      exact ⟨List.forall_mem_cons.mpr ⟨hw, hws⟩, h'⟩

theorem Listed.spelled_fields : ∀ {c xs c'}, Listed TypeField c xs c' → Named c.tokens →
    (∀ x ∈ xs, IsName x.1.toList ∧ x.2.1.Spelled) ∧ Named c'.tokens
  | _, _, _, .none, h => ⟨nofun, h⟩
  | _, _, _, .one item, h => by
      obtain ⟨hx, h'⟩ := item.spelled h
      exact ⟨List.forall_mem_cons.mpr ⟨hx, nofun⟩, h'⟩
  | _, _, _, .more item rest, h => by
      obtain ⟨hx, h'⟩ := item.spelled h
      obtain ⟨hxs, h'⟩ := rest.spelled_fields h'.tail
      exact ⟨List.forall_mem_cons.mpr ⟨hx, hxs⟩, h'⟩

end

end Grammar

namespace Registry

variable {r : Registry}

open TypeExpr

mutual

/-- **What a written type denotes can be written.** -/
theorem resolve_printable : ∀ {w : TypeExpr} {t : Ty}, w.Spelled → r.resolve w = .ok t →
    t.Printable r
  | .named span name args, t, .named hname hargs, h => by
      obtain ⟨-, hp⟩ | ⟨wrap, arg, s, hw, rfl, hs, rfl⟩ |
          ⟨k, v, key, value, -, rfl, hk, hv, hkey, rfl⟩ |
        ⟨-, hp, hw, hm, halias⟩ := resolve_named_eq_ok.mp h
      · exact .primitive hp
      · exact .wrapper hw (resolve_printable (hargs arg List.mem_cons_self) hs)
      · obtain ⟨hsk, hsv⟩ := List.forall_mem_cons.mp hargs
        exact .map hkey (resolve_printable hsk hk)
          (resolve_printable (hsv v List.mem_cons_self) hv)
      · obtain ⟨target, hlookup, rfl⟩ := Option.map_eq_some_iff.mp halias
        exact .aliased hname hp hw hm halias
  | .func span params result, t, .func hparams hresult, h => by
      obtain ⟨ps, hps, h⟩ := Except.bind_eq_ok.mp h
      obtain ⟨res, hres, h⟩ := Except.bind_eq_ok.mp h
      cases h
      exact .func (resolve_printable hresult hres) (resolveAll_printable hparams hps)
  | .struct span fields, t, .struct hnames htypes, h => by
      obtain ⟨fs, hfs, h⟩ := Except.bind_eq_ok.mp h
      cases h
      obtain ⟨hnodup, hall⟩ := resolveFields_printable hnames htypes (by simp) (by simp) hfs
      exact .struct hnodup (fun f hf => (hall f hf).1) fun f hf => (hall f hf).2

theorem resolveAll_printable : ∀ {ws : List TypeExpr} {ts : List Ty}, (∀ w ∈ ws, w.Spelled) →
    r.resolveAll ws = .ok ts → ∀ t ∈ ts, t.Printable r
  | [], _, _, h, _, ht => by
      cases h
      cases ht
  | w :: ws, ts, hws, h, t, ht => by
      obtain ⟨t', ht', h⟩ := Except.bind_eq_ok.mp h
      obtain ⟨ts', hts, h⟩ := Except.bind_eq_ok.mp h
      cases h
      obtain ⟨hw, hws⟩ := List.forall_mem_cons.mp hws
      obtain rfl | ht := List.mem_cons.mp ht
      · exact resolve_printable hw ht'
      · exact resolveAll_printable hws hts t ht

theorem resolveFields_printable : ∀ {ws : List (String × TypeExpr × Span)}
    {done fs : List (String × Ty)}, (∀ w ∈ ws, IsName w.1.toList) → (∀ w ∈ ws, w.2.1.Spelled) →
      (done.map Prod.fst).Nodup → (∀ f ∈ done, IsName f.1.toList ∧ f.2.Printable r) →
        r.resolveFields done ws = .ok fs →
          (fs.map Prod.fst).Nodup ∧ ∀ f ∈ fs, IsName f.1.toList ∧ f.2.Printable r
  | [], _, _, _, _, hnodup, hdone, h => by
      cases h
      exact ⟨hnodup, hdone⟩
  | (name, w, span) :: ws, done, fs, hnames, hws, hnodup, hdone, h => by
      rw [resolveFields] at h
      split at h
      · cases h
      case isFalse hnew =>
        obtain ⟨t, ht, h⟩ := Except.bind_eq_ok.mp h
        obtain ⟨hname, hnames⟩ := List.forall_mem_cons.mp hnames
        obtain ⟨hw, hws⟩ := List.forall_mem_cons.mp hws
        refine resolveFields_printable hnames hws ?_ (fun f hf => ?_) h
        · exact Entries.nodup_concat hnodup (by simpa using hnew)
        · obtain hf | hf := List.mem_append.mp hf
          · exact hdone f hf
          · obtain rfl := List.mem_singleton.mp hf
            exact ⟨hname, resolve_printable hw ht⟩

end

end Registry

/-- **A type that was read can be written.** -/
theorem printable_of_parseType {source : String} {r : Registry} {t : Ty}
    (h : parseType source r = .ok t) : t.Printable r := by
  obtain ⟨tokens, htokens, w, ⟨stop, hw⟩, ht⟩ := parseType_eq_ok.mp h
  exact Registry.resolve_printable (hw.spelled (Lexer.isName_of_tokenize htokens)).1 ht

end Ascription
