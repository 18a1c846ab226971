import Ascription.Proofs.Entries
import Ascription.Proofs.Except
import Ascription.Proofs.Ty.Mentions
import Ascription.Registry

/-!
# Proofs/Registry — what written types are resolved to

A name is resolved in one of four ways (`resolve_named_eq_ok`).  Types that are resolved are built
from the built-in forms and the aliases, so they hold no object that the aliases do not hold.
-/

namespace Ascription

namespace Registry

open Ty

variable {r : Registry}

/-- **A registry that a host can build**: the built-in one, with definitions and declarations. -/
inductive Built : Registry → Prop
  | initial : Built initial
  | defineAlias {r r' n target} (built : Built r)
      (defined : r.defineAlias n target = .ok r') : Built r'
  | declareFunction {r r' n signature} (built : Built r)
      (declared : r.declareFunction n signature = .ok r') : Built r'

/-- Reserved names are no aliases. -/
theorem Built.alias?_reserved (h : Built r) {n : String} (hn : isReservedTypeName n = true) :
    r.alias? n = Option.none := by
  rw [alias?, Option.map_eq_none_iff]
  induction h with
  | initial => rfl
  | @defineAlias r r' n' target _ defined ih =>
    rw [Registry.defineAlias] at defined
    split at defined
    · cases defined
    case isFalse hfree =>
      split at defined
      · cases defined
      · cases defined
        have hne : n ≠ n' := by
          rintro rfl
          exact hfree hn
        rw [Entries.lookup_insert_of_ne hne]
        exact ih
  | declareFunction _ declared ih =>
    rw [Registry.declareFunction] at declared
    split at declared
    · cases declared
    · split at declared
      · cases declared
      · cases declared
        exact ih

theorem primitive?_parts {name : String} {t : Ty} (h : primitive? name = Option.some t) :
    t.parts = [] ∧ ∀ n, t ≠ .object n := by
  unfold primitive? at h
  split at h
  case h_8 => cases h
  all_goals
    obtain rfl := Option.some.inj h
    exact ⟨rfl, by simp⟩

theorem wrapper?_parts {name : String} {wrap : Ty → Ty} (h : wrapper? name = Option.some wrap)
    (t : Ty) : (wrap t).parts = [t] ∧ ∀ n, wrap t ≠ .object n := by
  unfold wrapper? at h
  split at h
  case h_4 => cases h
  all_goals
    obtain rfl := Option.some.inj h
    exact ⟨rfl, by simp⟩

/-- **How a name is resolved**: as a built-in type without, with one or with two arguments, or as an
alias. -/
theorem resolve_named_eq_ok {span : Span} {name : String} {args : List TypeExpr} {t : Ty} :
    r.resolve (.named span name args) = .ok t ↔
      (args = [] ∧ primitive? name = Option.some t) ∨
      (∃ wrap arg s, wrapper? name = Option.some wrap ∧ args = [arg] ∧ r.resolve arg = .ok s ∧
        t = wrap s) ∨
      (∃ k v key value, name = "map" ∧ args = [k, v] ∧ r.resolve k = .ok key ∧
        r.resolve v = .ok value ∧ key.isKey = true ∧ t = .map key value) ∨
      (args = [] ∧ primitive? name = Option.none ∧ wrapper? name = Option.none ∧ name ≠ "map" ∧
        r.alias? name = Option.some t) := by
  conv =>
    lhs
    unfold resolve
  cases hp : primitive? name with
  | some p =>
    have hw : wrapper? name = Option.none := by
      unfold primitive? at hp
      split at hp <;> first | rfl | cases hp
    have hm : name ≠ "map" := by
      rintro rfl
      cases hp
    cases args <;> simp [hw, hm]
  | none =>
    cases hw : wrapper? name with
    | some wrap =>
      have hm : name ≠ "map" := by
        rintro rfl
        cases hw
      match args with
      | [] | _ :: _ :: _ => simp [hm]
      | [arg] =>
        simp only [Except.map_eq_ok]
        constructor
        · rintro ⟨s, hs, rfl⟩
          exact .inr (.inl ⟨wrap, arg, s, rfl, rfl, hs, rfl⟩)
        · rintro (⟨⟨⟩, -⟩ | ⟨_, _, s, ⟨⟩, ⟨⟩, hs, rfl⟩ | ⟨_, _, _, _, -, ⟨⟩, -⟩ | ⟨⟨⟩, -⟩)
          exact ⟨s, hs, rfl⟩
    | none =>
      by_cases hm : name = "map"
      · subst hm
        match args with
        | [] | [_] | _ :: _ :: _ :: _ => simp
        | [k, v] =>
          rw [if_pos rfl]
          simp only [Except.bind_eq_ok]
          constructor
          · rintro ⟨key, hk, value, hv, h⟩
            split at h
            case isTrue hkey =>
              cases h
              exact .inr (.inr (.inl ⟨k, v, key, value, trivial, rfl, hk, hv, hkey, rfl⟩))
            case isFalse => cases h
          · rintro (⟨⟨⟩, -⟩ | ⟨_, _, _, ⟨⟩, -⟩ | ⟨_, _, key, value, -, ⟨⟩, hk, hv, hkey, rfl⟩ |
              ⟨⟨⟩, -⟩)
            exact ⟨key, hk, value, hv, if_pos hkey⟩
      · cases r.alias? name <;> cases args <;> simp [hm]

mutual

/-- **What is resolved is candid**, if the aliases are. -/
theorem resolve_candid (ha : ∀ a ∈ r.aliases, Candid a.2) : ∀ {w : TypeExpr} {t : Ty},
    r.resolve w = .ok t → Candid t
  | .named span name args, t, h => by
      obtain ⟨-, hp⟩ | ⟨wrap, arg, s, hw, rfl, hs, rfl⟩ |
          ⟨k, v, key, value, -, rfl, hk, hv, -, rfl⟩ |
        ⟨-, -, -, -, halias⟩ := resolve_named_eq_ok.mp h
      · obtain ⟨hparts, hobject⟩ := primitive?_parts hp
        exact .of_parts hobject (by simp [hparts])
      · obtain ⟨hparts, hobject⟩ := wrapper?_parts hw s
        have h := resolve_candid ha hs
        exact .of_parts hobject (by simpa [hparts] using h)
      · have hkey := resolve_candid ha hk
        have hvalue := resolve_candid ha hv
        exact .of_parts nofun (by simpa [Ty.parts] using ⟨hkey, hvalue⟩)
      · obtain ⟨target, hlookup, rfl⟩ := Option.map_eq_some_iff.mp halias
        exact .of_parts nofun (by simpa [Ty.parts] using ha _ (Entries.mem_of_lookup hlookup))
  | .func span params result, t, h => by
      obtain ⟨ps, hps, h⟩ := Except.bind_eq_ok.mp h
      obtain ⟨res, hres, h⟩ := Except.bind_eq_ok.mp h
      cases h
      refine .of_parts nofun fun s hs => ?_
      obtain rfl | hs := List.mem_cons.mp hs
      · exact resolve_candid ha hres
      · exact resolveAll_candid ha hps s hs
  | .struct span fields, t, h => by
      obtain ⟨fs, hfs, h⟩ := Except.bind_eq_ok.mp h
      cases h
      refine .of_parts nofun fun s hs => ?_
      obtain ⟨f, hf, rfl⟩ := List.mem_map.mp hs
      exact resolveFields_candid ha (by simp) hfs f hf

theorem resolveAll_candid (ha : ∀ a ∈ r.aliases, Candid a.2) : ∀ {ws : List TypeExpr}
    {ts : List Ty}, r.resolveAll ws = .ok ts → ∀ t ∈ ts, Candid t
  | [], _, h, _, ht => by
      cases h
      cases ht
  | w :: ws, ts, h, t, ht => by
      obtain ⟨t', ht', h⟩ := Except.bind_eq_ok.mp h
      obtain ⟨ts', hts, h⟩ := Except.bind_eq_ok.mp h
      cases h
      obtain rfl | ht := List.mem_cons.mp ht
      · exact resolve_candid ha ht'
      · exact resolveAll_candid ha hts t ht

theorem resolveFields_candid (ha : ∀ a ∈ r.aliases, Candid a.2) :
    ∀ {ws : List (String × TypeExpr × Span)} {done fs : List (String × Ty)},
      (∀ f ∈ done, Candid f.2) → r.resolveFields done ws = .ok fs → ∀ f ∈ fs, Candid f.2
  | [], _, _, hd, h => by
      cases h
      exact hd
  | (name, w, span) :: ws, done, fs, hd, h => by
      rw [resolveFields] at h
      split at h
      · cases h
      · obtain ⟨t, ht, h⟩ := Except.bind_eq_ok.mp h
        refine resolveFields_candid ha (fun f hf => ?_) h
        obtain hf | hf := List.mem_append.mp hf
        · exact hd f hf
        · obtain rfl := List.mem_singleton.mp hf
          exact resolve_candid ha ht

end

end Registry

end Ascription
