import Ascription.Proofs.Ty.Transparent
import Ascription.Proofs.Value.Fits
import Ascription.Value.Json

/-!
# Proofs/Value/Transparent — aliases decide nothing about values

A check against an expanded type stops at the part where the check against the type as it is written
stops; only the type it names there is expanded.  A document reads as one value for both types.
-/

namespace Ascription

/-! ## Checks -/

namespace Mismatch

/-- The mismatch with the required type expanded. -/
def expand (m : Mismatch) : Mismatch :=
  match m.required with
  | .type t => { m with required := .type t.expand }
  | .field _ => m

theorem path_expand (m : Mismatch) : m.expand.path = m.path := by
  rw [expand]
  split <;> rfl

theorem expand_within {segment : PathSegment} {m : Mismatch} :
    (m.within segment).expand = m.expand.within segment := by
  obtain ⟨required, actual, path⟩ := m
  cases required <;> rfl

end Mismatch

namespace Value

open Ty

theorem checkPart_expand {segment : PathSegment} {verdict : Except Mismatch Unit} :
    checkPart segment (verdict.mapError Mismatch.expand) =
      (checkPart segment verdict).mapError Mismatch.expand := by
  cases verdict with
  | ok => rfl
  | error m => exact congrArg Except.error Mismatch.expand_within.symm

theorem checkItems_expand {check check' : Value → Except Mismatch Unit}
    (h : ∀ v, check' v = (check v).mapError Mismatch.expand) {i : Nat} {vs : List Value} :
    checkItems check' i vs = (checkItems check i vs).mapError Mismatch.expand := by
  induction vs generalizing i with
  | nil => rfl
  | cons v vs ih =>
    rw [checkItems, checkItems, Except.then_mapError, h, checkPart_expand, ih]

theorem checkEntries_expand {checkKey checkKey' check check' : Value → Except Mismatch Unit}
    (hkey : ∀ v, checkKey' v = (checkKey v).mapError Mismatch.expand)
    (h : ∀ v, check' v = (check v).mapError Mismatch.expand) {es : List (MapKey × Value)} :
    checkEntries checkKey' check' es =
      (checkEntries checkKey check es).mapError Mismatch.expand := by
  induction es with
  | nil => rfl
  | cons e es ih =>
    obtain ⟨k, v⟩ := e
    rw [checkEntries, checkEntries, Except.then_mapError, Except.then_mapError, hkey, h,
      checkPart_expand, checkPart_expand, ih]

mutual

/-- A check follows a type and the expanded type in step, whatever type was written. -/
theorem checkAs_expand : ∀ {w t : Ty} {v : Value},
    checkAs w.expand t.expand v = (checkAs w t v).mapError Mismatch.expand
  | w, .aliased _ t, _ => checkAs_expand (w := w) (t := t)
  | w, .option t, v => by
    have ih := @checkAs_expand t t v
    cases v with
    | none => rfl
    | _ => exact ih
  | w, .some t, v => by
    have ih := @checkAs_expand t t v
    cases v with
    | none => rfl
    | _ => exact ih
  | w, .list t, v => by
    have ih := fun v => @checkAs_expand t t v
    cases v with
    | list vs => exact checkItems_expand ih
    | _ => rfl
  | w, .map k t, v => by
    have ihkey := fun v => @checkAs_expand k k v
    have ih := fun v => @checkAs_expand t t v
    cases v with
    | map es => exact checkEntries_expand ihkey ih
    | _ => rfl
  | w, .struct fields, v => by
    have ih := fun kind fs => @checkFields_expand fields kind fs
    cases v with
    | record kind fs => exact ih kind fs
    | _ => rfl
  | w, .object name, v => by
    cases v with
    | record kind fs =>
      cases kind with
      | none => rfl
      | some kind =>
        by_cases hkind : name = kind
        · simp only [expand, checkAs, if_pos hkind]
          rfl
        · simp only [expand, checkAs, if_neg hkind]
          rfl
    | _ => rfl
  | w, .func _ _, v | w, .any, v | w, .string, v | w, .int, v | w, .float, v | w, .bool, v
  | w, .none, v | w, .never, v => by cases v <;> rfl

theorem checkFields_expand : ∀ {fields : List (String × Ty)} {kind : Option String}
    {fs : List (String × Value)},
    checkFields (expandFields fields) kind fs =
      (checkFields fields kind fs).mapError Mismatch.expand
  | [], _, _ => rfl
  | (name, t) :: rest, kind, fs => by
    have ih := fun v => @checkAs_expand t t v
    have ihrest := @checkFields_expand rest kind fs
    rw [expandFields, checkFields, checkFields]
    split
    · rw [Except.then_mapError, ih, checkPart_expand, ihrest]
    · rfl

end

/-- **A check against the expanded type has the same outcome**, but for the type that a mismatch
names. -/
theorem check_expand {t : Ty} {v : Value} :
    v.check t.expand = (v.check t).mapError Mismatch.expand := checkAs_expand

end Value

/-! ## Documents -/

namespace Ty

theorem unwrapped_expand : ∀ {t : Ty}, t.expand.unwrapped = t.unwrapped.expand
  | .aliased _ t | .option t | .some t => unwrapped_expand (t := t)
  | .any | .string | .int | .float | .bool | .none | .never | .func _ _ | .list _ | .map _ _
  | .struct _ | .object _ => rfl

theorem unwrapped_ne_aliased : ∀ {t : Ty} {name : String} {target : Ty},
    t.unwrapped ≠ aliased name target
  | .aliased _ t, _, _, h | .option t, _, _, h | .some t, _, _, h => unwrapped_ne_aliased (t := t) h

end Ty

namespace Value

open Ty

theorem ofJsonNumber_expand {t : Ty} {n : JsonNumber} :
    ofJsonNumber (Option.some t.expand.unwrapped) n = ofJsonNumber (Option.some t.unwrapped) n := by
  rw [unwrapped_expand]
  cases ht : t.unwrapped with
  | aliased name target => exact absurd ht unwrapped_ne_aliased
  | _ => cases n <;> rfl

theorem wantedItem_expand {t : Ty} :
    wantedItem (Option.some t.expand.unwrapped) =
      (wantedItem (Option.some t.unwrapped)).map expand := by
  rw [unwrapped_expand]
  cases ht : t.unwrapped with
  | aliased name target => exact absurd ht unwrapped_ne_aliased
  | _ => rfl

theorem keyOfJson_expand {t : Ty} {name : String} : keyOfJson t.expand name = keyOfJson t name := by
  rw [keyOfJson, keyOfJson, canonical_expand_comm]
  cases ht : t.canonical with
  | aliased name target => exact absurd ht canonical_ne_aliased
  | _ => rfl

mutual

/-- **A document reads as the same value**, or is refused for the same reason, when the type that is
wanted is expanded. -/
theorem ofJson_expand : ∀ {wanted : Option Ty} {j : Json},
    ofJson (wanted.map expand) j = ofJson wanted j
  | Option.none, _ => rfl
  | Option.some _, .null | Option.some _, .bool _ | Option.some _, .string _ => rfl
  | Option.some t, .number n => by
    rw [ofJson, ofJson]
    exact ofJsonNumber_expand
  | Option.some t, .array items => by
    rw [ofJson, ofJson, Option.map_some, Option.map_some, Option.map_some, wantedItem_expand,
      ofJsonItems_expand]
  | Option.some t, .object members => by
    have hentries := fun k v => @ofJsonEntries_expand k v members
    have hmembers := fun fields => @ofJsonMembers_expand fields members
    rw [ofJson, ofJson, Option.map_some, Option.map_some, Option.map_some, unwrapped_expand]
    cases ht : t.unwrapped with
    | aliased name target => exact absurd ht unwrapped_ne_aliased
    | map k v => simp only [expand, hentries]
    | struct fields => simp only [expand, wantedFields, hmembers]
    | _ => rfl

theorem ofJsonItems_expand : ∀ {wanted : Option Ty} {items : List Json},
    ofJsonItems (wanted.map expand) items = ofJsonItems wanted items
  | _, [] => rfl
  | wanted, j :: js => by
    rw [ofJsonItems, ofJsonItems, ofJson_expand, ofJsonItems_expand]

theorem ofJsonEntries_expand : ∀ {k v : Ty} {members : List (String × Json)},
    ofJsonEntries k.expand v.expand members = ofJsonEntries k v members
  | _, _, [] => rfl
  | k, v, (name, j) :: rest => by
    have hvalue : ofJson (Option.some v.expand) j = ofJson (Option.some v) j :=
      @ofJson_expand (Option.some v) j
    rw [ofJsonEntries, ofJsonEntries, keyOfJson_expand, hvalue, ofJsonEntries_expand]

theorem ofJsonMembers_expand : ∀ {fields : List (String × Ty)} {members : List (String × Json)},
    ofJsonMembers (expandFields fields) members = ofJsonMembers fields members
  | _, [] => rfl
  | fields, (name, j) :: rest => by
    rw [ofJsonMembers, ofJsonMembers, lookup_expandFields, ofJson_expand, ofJsonMembers_expand]

end

end Value

open Ty

/-- **Aliases are transparent**: a type may be replaced by its expansion wherever types are
compared, values checked, static rules applied and documents read. -/
theorem aliases_transparent (a b : Ty) (v : Value) (j : Json) :
    a.expand.equal b.expand = a.equal b ∧
    a.expand.isSubtype b.expand = a.isSubtype b ∧
    (v.check a.expand).mapError Mismatch.path = (v.check a).mapError Mismatch.path ∧
    (∀ s s' : Span,
      Rule.equality ⟨a.expand, s⟩ ⟨b.expand, s'⟩ =
        (Rule.equality ⟨a, s⟩ ⟨b, s'⟩).mapError TypeError.expand ∧
      Rule.disjunction ⟨a.expand, s⟩ ⟨b.expand, s'⟩ =
        (Rule.disjunction ⟨a, s⟩ ⟨b, s'⟩).mapError TypeError.expand ∧
      (∀ op, Rule.arithmetic op ⟨a.expand, s⟩ ⟨b.expand, s'⟩ =
        (Rule.arithmetic op ⟨a, s⟩ ⟨b, s'⟩).mapError TypeError.expand) ∧
      Rule.negation ⟨a.expand, s⟩ = (Rule.negation ⟨a, s⟩).mapError TypeError.expand ∧
      Rule.listElement a.expand ⟨b.expand, s'⟩ =
        (Rule.listElement a ⟨b, s'⟩).mapError TypeError.expand ∧
      (∀ field ascribed, Rule.fieldType a.expand field (ascribed.map expand) s =
        ((Rule.fieldType a field ascribed s).map expand).mapError TypeError.expand) ∧
      Rule.offsetType ⟨a.expand, s⟩ ⟨b.expand, s'⟩ =
        ((Rule.offsetType ⟨a, s⟩ ⟨b, s'⟩).map expand).mapError TypeError.expand) ∧
    Value.ofJson (Option.some a.expand) j = Value.ofJson (Option.some a) j := by
  refine ⟨equal_expand, isSubtype_expand a b, ?path, fun s s' => ?rules, ?document⟩
  case path =>
    rw [Value.check_expand]
    cases v.check a with
    | ok => rfl
    | error m => exact congrArg Except.error m.path_expand
  case rules =>
    let x : Typed := ⟨a, s⟩
    let y : Typed := ⟨b, s'⟩
    exact ⟨Rule.equality_expand (a := x) (b := y), Rule.disjunction_expand (a := x) (b := y),
      fun _ => Rule.arithmetic_expand (a := x) (b := y), Rule.negation_expand (a := x),
      Rule.listElement_expand (a := y), fun _ _ => Rule.fieldType_expand,
      Rule.offsetType_expand (a := x) (b := y)⟩
  case document => exact @Value.ofJson_expand (Option.some a) j

end Ascription
