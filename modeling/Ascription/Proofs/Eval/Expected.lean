import Ascription.Proofs.Eval.TypeSound
import Ascription.Proofs.Value.Expand

/-!
# Proofs/Eval/Expected — what an expected type promises

    expected ◂──equal── static type ◂──fits── value

`parseTyped` compares the static type with the expected one.  Without field accesses and
list literals every value fits the static type; it fits the expected one as far as
equality sees the types.
-/

namespace Ascription

open Ascription.Expr

theorem parseTyped_eq_ok {source : String} {expected : Ty} {r : Registry} {e : Expr} :
    parseTyped source expected r = .ok e ↔
      parse source r = .ok e ∧ ∃ t, e.type? = some t ∧ t.equal expected = true := by
  rw [parseTyped, Except.bind_eq_ok]
  constructor
  · rintro ⟨e', he, h⟩
    split at h
    case h_1 => cases h
    case h_2 t ht =>
      split at h
      case h_1 => cases h
      case h_2 hequal =>
        cases h
        exact ⟨he, t, staticType_eq_ok.mp ht, Rule.expectEqual_eq_ok.mp hequal⟩
  · rintro ⟨he, t, ht, hequal⟩
    have hrule : Rule.expectEqual expected ⟨t, e.span⟩ = .ok () := Rule.expectEqual_eq_ok.mpr hequal
    refine ⟨e, he, ?_⟩
    rw [staticType_eq_ok.mpr ht]
    simp only [hrule]

/-- Without field accesses and list literals the static types of an accepted text can be relied
on. -/
theorem reliable_of_parse {source : String} {r : Registry} {e : Expr} (h : parse source r = .ok e)
    (hfree : ∀ n, Within n e → n.form ≠ .field ∧ n.form ≠ .list) :
    Everywhere (Reliable fun _ => True) e := by
  intro n hn
  refine ⟨ruled_of_parseWith h (fun _ => trivial) nofun n hn, ?_, ?_⟩
  · cases n with
    | field => exact absurd rfl (hfree _ hn).1
    | _ => trivial
  · cases n with
    | list => exact absurd rfl (hfree _ hn).2
    | _ => trivial

/-- **The value of a text has the type that is expected of it**, up to what equality
of types does not see. -/
theorem parseTyped_keeps_type {source : String} {expected : Ty} {r : Registry} {e : Expr}
    (h : parseTyped source expected r = .ok e)
    (hfree : ∀ n, Within n e → n.form ≠ .field ∧ n.form ≠ .list) {host : Host} {depth : Nat}
    {scope : Scope} {next : Nat} {v : Value} {next' : Nat}
    (hv : e.evaluate host depth scope next = .value v next') :
    ∃ t, e.type? = some t ∧ t.equal expected = true ∧ v.check t = .ok () ∧
      (t.Comparable expected → v.check expected = .ok ()) := by
  obtain ⟨hparse, t, ht, hequal⟩ := parseTyped_eq_ok.mp h
  have hfits : Value.Fits t v := fits_of_evalWith e (reliable_of_parse hparse hfree) ht hv
  exact ⟨t, ht, hequal, hfits, fun hcomparable =>
    Value.Included.of_equal hcomparable hequal v hfits⟩

/-- A list of integers where a list of identifiers is expected. -/
theorem parseTyped_keeps_type_list : ∃ e,
    parseTyped "xs:list<int>" (.list (.aliased "id" .int)) .initial = .ok e ∧
      ∀ (host : Host) (depth next : Nat), ∃ v,
        e.evaluate host depth [.mk [("xs", .list [.int 3])] Scope.builtins] next = .value v next ∧
          v.check (.list (.aliased "id" .int)) = .ok () := by
  have h : parseTyped "xs:list<int>" (.list (.aliased "id" .int)) .initial =
      .ok (.get ⟨⟨1, 1⟩, ⟨1, 13⟩⟩ "xs" (.list .int)) := by
    decide +kernel
  refine ⟨_, h, fun host depth next => ⟨.list [.int 3], rfl, ?_⟩⟩
  obtain ⟨t, ht, -, -, hkeeps⟩ := @parseTyped_keeps_type _ _ _ _ h
    (Everywhere.node ⟨nofun, nofun⟩ nofun) host depth
    [.mk [("xs", .list [.int 3])] Scope.builtins] next _ next rfl
  cases ht
  exact hkeeps (.same rfl)

/-- **Not every value has the type that is expected of it**: the keys and values of maps are never
compared. -/
theorem not_always_keeps_type :
    ¬ ∀ (source : String) (expected : Ty) (r : Registry) (e : Expr),
      parseTyped source expected r = .ok e →
        (∀ n, Within n e → n.form ≠ .field ∧ n.form ≠ .list) →
          ∀ (host : Host) (depth : Nat) (scope : Scope) (next : Nat) (v : Value) (next' : Nat),
            e.evaluate host depth scope next = .value v next' → v.check expected = .ok () := by
  have h : parseTyped "m:map<string, int>" (.map .int .bool) .initial =
      .ok (.get ⟨⟨1, 1⟩, ⟨1, 19⟩⟩ "m" (.map .string .int)) := by
    decide +kernel
  let scope : Scope := [.mk [("m", .map [(.string "a", .int 1)])] Scope.builtins]
  intro hall
  have hcheck := hall _ _ _ _ h (Everywhere.node ⟨nofun, nofun⟩ nofun)
    (fun _ _ => .finish (.ok .none)) 0 scope 0 (.map [(.string "a", .int 1)]) 0 rfl
  cases hcheck

end Ascription
