import Ascription.Eval
import Ascription.Proofs.Entries

/-!
# Proofs/Value/MapCode — what values show of their callables

    v ──mapCode f──▸ v'        text v' = text v,   equal v' w' = equal v w,   check t v' = check t v

A callable shows its identity and that it is a function; what it does shows only when it is called.
So whatever inspects a value without calling it sees the same when the code inside is replaced.
-/

namespace Ascription

namespace Value

/-! ## Replacing code -/

mutual

/-- **The value with the code of its callables replaced.** -/
def mapCode (f : Code → Code) : Value → Value
  | string s => string s
  | int n => int n
  | float x => float x
  | bool b => bool b
  | none => none
  | list items => list (mapCodeItems f items)
  | map entries => map (mapCodeEntries f entries)
  | record kind fields => record kind (mapCodeFields f fields)
  | callable identity code => callable identity (f code)

def mapCodeItems (f : Code → Code) : List Value → List Value
  | [] => []
  | v :: vs => mapCode f v :: mapCodeItems f vs

def mapCodeEntries (f : Code → Code) : List (MapKey × Value) → List (MapKey × Value)
  | [] => []
  | (k, v) :: rest => (k, mapCode f v) :: mapCodeEntries f rest

def mapCodeFields (f : Code → Code) : List (String × Value) → List (String × Value)
  | [] => []
  | (name, v) :: rest => (name, mapCode f v) :: mapCodeFields f rest

end

variable {f g : Code → Code}

theorem mapCodeEntries_eq_map {es : List (MapKey × Value)} :
    mapCodeEntries f es = es.map fun e => (e.1, mapCode f e.2) := by
  induction es with
  | nil => rfl
  | cons e es ih => exact congrArg ((e.1, mapCode f e.2) :: ·) ih

theorem mapCodeFields_eq_map {fs : List (String × Value)} :
    mapCodeFields f fs = fs.map fun e => (e.1, mapCode f e.2) := by
  induction fs with
  | nil => rfl
  | cons e fs ih => exact congrArg ((e.1, mapCode f e.2) :: ·) ih

/-! ## Text -/

mutual

/-- **The text of a value** says of a callable only that it is one. -/
theorem text_mapCode : ∀ v : Value, (v.mapCode f).text = v.text
  | string _ | int _ | float _ | bool _ | none | callable _ _ => rfl
  | list items => by rw [mapCode, text, text, textItems_mapCode items]
  | map entries => by rw [mapCode, text, text, textEntries_mapCode entries]
  | record kind fields => by simp only [mapCode, text, textFields_mapCode fields]

theorem textItems_mapCode : ∀ vs : List Value, textItems (mapCodeItems f vs) = textItems vs
  | [] => rfl
  | v :: vs => by rw [mapCodeItems, textItems, textItems, text_mapCode v, textItems_mapCode vs]

theorem textEntries_mapCode : ∀ es : List (MapKey × Value),
    textEntries (mapCodeEntries f es) = textEntries es
  | [] => rfl
  | (k, v) :: rest => by
    rw [mapCodeEntries, textEntries, textEntries, text_mapCode v, textEntries_mapCode rest]

theorem textFields_mapCode : ∀ fs : List (String × Value),
    textFields (mapCodeFields f fs) = textFields fs
  | [] => rfl
  | (name, v) :: rest => by
    rw [mapCodeFields, textFields, textFields, text_mapCode v, textFields_mapCode rest]

end

/-! ## Equality -/

mutual

/-- **Equality of values** looks at the identities of callables alone. -/
theorem equal_mapCode : ∀ v w : Value, (v.mapCode f).equal (w.mapCode g) = v.equal w
  | list xs, w => by
    cases w with
    | list ys => simp only [mapCode, equal, equalItems_mapCode xs ys]
    | _ => simp only [mapCode, equal]
  | map es, w => by
    cases w with
    | map fs =>
      rw [mapCode, mapCode, equal, equal, entriesIn_mapCode es fs, mapCodeEntries_eq_map,
        mapCodeEntries_eq_map, List.length_map, List.length_map]
    | _ => simp only [mapCode, equal]
  | record k es, w => by
    cases w with
    | record l fs =>
      rw [mapCode, mapCode, equal, equal, fieldsIn_mapCode es fs, mapCodeFields_eq_map,
        mapCodeFields_eq_map, List.length_map, List.length_map]
    | _ => simp only [mapCode, equal]
  | string _, w | int _, w | float _, w | bool _, w | none, w | callable _ _, w => by
    cases w <;> simp only [mapCode, equal]

theorem equalItems_mapCode : ∀ vs ws : List Value,
    equalItems (mapCodeItems f vs) (mapCodeItems g ws) = equalItems vs ws
  | [], [] | [], _ :: _ | _ :: _, [] => by simp only [mapCodeItems, equalItems]
  | v :: vs, w :: ws => by
    rw [mapCodeItems, mapCodeItems, equalItems, equalItems, equal_mapCode v w,
      equalItems_mapCode vs ws]

theorem entriesIn_mapCode : ∀ es fs : List (MapKey × Value),
    entriesIn (mapCodeEntries f es) (mapCodeEntries g fs) = entriesIn es fs
  | [], _ => by rw [mapCodeEntries, entriesIn, entriesIn]
  | (k, v) :: rest, fs => by
    rw [mapCodeEntries, entriesIn, entriesIn, entriesIn_mapCode rest fs,
      mapCodeEntries_eq_map, Entries.lookup_map]
    cases fs.lookup k with
    | none => rfl
    | some w => exact congrArg (· && _) (equal_mapCode v w)

theorem fieldsIn_mapCode : ∀ es fs : List (String × Value),
    fieldsIn (mapCodeFields f es) (mapCodeFields g fs) = fieldsIn es fs
  | [], _ => by rw [mapCodeFields, fieldsIn, fieldsIn]
  | (name, v) :: rest, fs => by
    rw [mapCodeFields, fieldsIn, fieldsIn, fieldsIn_mapCode rest fs,
      mapCodeFields_eq_map, Entries.lookup_map]
    cases fs.lookup name with
    | none => rfl
    | some w => exact congrArg (· && _) (equal_mapCode v w)

end

/-! ## Checks -/

theorem checkItems_mapCode {check : Value → Except Mismatch Unit}
    (h : ∀ v, check (mapCode f v) = check v) {i : Nat} {vs : List Value} :
    checkItems check i (mapCodeItems f vs) = checkItems check i vs := by
  induction vs generalizing i with
  | nil => rfl
  | cons v vs ih => rw [mapCodeItems, checkItems, checkItems, h, ih]

theorem checkEntries_mapCode {checkKey check : Value → Except Mismatch Unit}
    (h : ∀ v, check (mapCode f v) = check v) {es : List (MapKey × Value)} :
    checkEntries checkKey check (mapCodeEntries f es) = checkEntries checkKey check es := by
  induction es with
  | nil => rfl
  | cons e es ih =>
    obtain ⟨k, v⟩ := e
    rw [mapCodeEntries, checkEntries, checkEntries, h, ih]

mutual

theorem checkAs_mapCode : ∀ {w t : Ty} {v : Value}, checkAs w t (v.mapCode f) = checkAs w t v
  | w, .aliased _ t, _ => checkAs_mapCode (w := w) (t := t)
  | w, .option t, v => by
    have ih := @checkAs_mapCode t t v
    cases v with
    | none => rfl
    | _ => exact ih
  | w, .some t, v => by
    have ih := @checkAs_mapCode t t v
    cases v with
    | none => rfl
    | _ => exact ih
  | w, .list t, v => by
    have ih := fun v => @checkAs_mapCode t t v
    cases v with
    | list vs => exact checkItems_mapCode ih
    | _ => rfl
  | w, .map k t, v => by
    have ih := fun v => @checkAs_mapCode t t v
    cases v with
    | map es => exact checkEntries_mapCode ih
    | _ => rfl
  | w, .struct fields, v => by
    have ih := fun kind fs => @checkFields_mapCode fields kind fs
    cases v with
    | record kind fs => exact ih kind fs
    | _ => rfl
  | w, .object name, v => by
    cases v with
    | record kind fs => cases kind <;> rfl
    | _ => rfl
  | w, .func _ _, v | w, .any, v | w, .string, v | w, .int, v | w, .float, v | w, .bool, v
  | w, .none, v | w, .never, v => by cases v <;> rfl

theorem checkFields_mapCode : ∀ {fields : List (String × Ty)} {kind : Option String}
    {fs : List (String × Value)},
    checkFields fields kind (mapCodeFields f fs) = checkFields fields kind fs
  | [], _, _ => rfl
  | (name, t) :: rest, kind, fs => by
    have ih := fun v => @checkAs_mapCode t t v
    have ihrest := @checkFields_mapCode rest kind fs
    rw [checkFields, checkFields, mapCodeFields_eq_map, Entries.lookup_map, ← mapCodeFields_eq_map]
    cases fs.lookup name with
    | none => rfl
    | some v =>
      change (checkPart _ (checkAs t t (v.mapCode f)) >>= fun _ => _) = _
      rw [ih, ihrest]

end

/-- **A check** does not look at the code of a callable. -/
theorem check_mapCode {t : Ty} {v : Value} : (v.mapCode f).check t = v.check t := checkAs_mapCode

/-! ## Operators -/

theorem binary_mapCode {op : BinaryOp} {v w : Value} :
    binary op (v.mapCode f) (w.mapCode g) = binary op v w := by
  cases op with
  | eq => exact congrArg (fun b => Except.ok (bool b)) (equal_mapCode v w)
  | or => cases v <;> cases w <;> rfl
  | gt => cases v <;> cases w <;> rfl
  | subtract => cases v <;> cases w <;> rfl

theorem negate_mapCode {v : Value} : (v.mapCode f).negate = v.negate := by
  cases v <;> rfl

end Value

end Ascription
