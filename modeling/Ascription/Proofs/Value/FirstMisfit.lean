import Ascription.Proofs.Rule
import Ascription.Proofs.Value.Equal
import Ascription.Proofs.Value.Fits

/-!
# Proofs/Value/FirstMisfit — a mismatch leads to the first part that does not fit

    check t v = error m      ⟺      m is the first misfit of v against t
    v ──m.path──▸ w          and    m names the type of w, of a key, or a field that w lacks

A check goes through a value in the order of its items, its entries and the declared fields,
and stops at the first that does not fit.  On the way back each level puts its own step
before the path of the part.
-/

namespace Ascription

namespace Value

open Entries

/-! ## Following a path -/

/-- The part of a value behind one step. -/
def part? : Value → PathSegment → Option Value
  | .list vs, .index i => vs[i]?
  | .map es, .key k => es.lookup k
  | .record _ fs, .field name => fs.lookup name
  | _, _ => Option.none

/-- **The part of a value at the end of a path.** -/
def follow (v : Value) (path : List PathSegment) : Option Value := path.foldlM part? v

theorem follow_cons {v x : Value} {segment : PathSegment} {path : List PathSegment}
    (h : v.part? segment = Option.some x) : v.follow (segment :: path) = x.follow path := by
  rw [follow, List.foldlM_cons, h]
  rfl

/-! ## Misfits -/

/-- **A value refused for its form**, whatever its parts may be: it has none that the type could be
checked against. -/
def RefusedAs (t : Ty) (v : Value) : Prop :=
  match t.canonical with
  | .option _ => False
  | .some _ => v = .none
  | .list _ => ∀ vs, v ≠ .list vs
  | .map _ _ => ∀ es, v ≠ .map es
  | .struct _ => ∀ kind fs, v ≠ .record kind fs
  | c => ¬ Fits c v

/-- The entry has a key and a value of the types. -/
def EntryFits (k t : Ty) (e : MapKey × Value) : Prop := Fits k e.1.toValue ∧ Fits t e.2

/-- The record has the declared field, with a value of its type. -/
def FieldFits (fs : List (String × Value)) (f : String × Ty) : Prop :=
  ∃ x, fs.lookup f.1 = some x ∧ Fits f.2 x

/-- **The first misfit of a value against a type.** Behind each step of the path, the parts that
come before the one the step leads to all fit. -/
inductive FirstMisfit : Ty → Value → Mismatch → Prop
  /-- The value itself is refused. -/
  | form {t v} (refused : RefusedAs t v) : FirstMisfit t v ⟨.type t, v.typeName, []⟩
  /-- The record has not all the declared fields, but those before the one it lacks. -/
  | lacks {t kind fs before name u after}
      (form : t.canonical = .struct (before ++ (name, u) :: after))
      (fit : ∀ f ∈ before, FieldFits fs f) (missing : fs.lookup name = Option.none) :
      FirstMisfit t (.record kind fs) ⟨.field name, (Value.record kind fs).typeName, []⟩
  /-- An option is checked as what it may hold. -/
  | option {t u v m} (form : t.canonical = .option u) (present : v ≠ .none)
      (inner : FirstMisfit u v m) : FirstMisfit t v m
  | some {t u v m} (form : t.canonical = .some u) (present : v ≠ .none)
      (inner : FirstMisfit u v m) : FirstMisfit t v m
  | item {t u before x after m} (form : t.canonical = .list u) (fit : ∀ y ∈ before, Fits u y)
      (misfit : FirstMisfit u x m) :
      FirstMisfit t (.list (before ++ x :: after)) (m.within (.index before.length))
  /-- The key of an entry is checked before its value. -/
  | key {t k u before key x after m} (form : t.canonical = .map k u)
      (fit : ∀ e ∈ before, EntryFits k u e) (misfit : FirstMisfit k key.toValue m) :
      FirstMisfit t (.map (before ++ (key, x) :: after)) (m.within (.key key))
  | value {t k u before key x after m} (form : t.canonical = .map k u)
      (fit : ∀ e ∈ before, EntryFits k u e) (keyFits : Fits k key.toValue)
      (misfit : FirstMisfit u x m) :
      FirstMisfit t (.map (before ++ (key, x) :: after)) (m.within (.key key))
  /-- Fields are checked in the order of their declarations, not of the record. -/
  | field {t kind fs before name u after x m}
      (form : t.canonical = .struct (before ++ (name, u) :: after))
      (fit : ∀ f ∈ before, FieldFits fs f) (found : fs.lookup name = Option.some x)
      (misfit : FirstMisfit u x m) : FirstMisfit t (.record kind fs) (m.within (.field name))

/-! ## The parts of a check -/

section Parts

variable {m : Mismatch}

theorem checkPart_eq_error {segment : PathSegment} {verdict : Except Mismatch Unit} :
    checkPart segment verdict = .error m ↔ ∃ m', verdict = .error m' ∧ m = m'.within segment :=
  Except.mapError_eq_error

theorem checkItems_eq_forM {check : Value → Except Mismatch Unit} {i : Nat} {vs : List Value} :
    checkItems check i vs = (vs.zipIdx i).forM fun e => checkPart (.index e.2) (check e.1) := by
  induction vs generalizing i with
  | nil => rfl
  | cons v vs ih =>
    rw [checkItems, ih]
    rfl

/-- **A list fails at its first item that does.** -/
theorem checkItems_eq_error {check : Value → Except Mismatch Unit} {vs : List Value} :
    checkItems check 0 vs = .error m ↔ ∃ before x after m', vs = before ++ x :: after ∧
      (∀ y ∈ before, check y = .ok ()) ∧ check x = .error m' ∧
        m = m'.within (.index before.length) := by
  rw [checkItems_eq_forM, Except.forM_eq_error]
  simp only [checkPart_eq_ok, checkPart_eq_error]
  constructor
  · rintro ⟨_, ⟨x, i⟩, _, hsplit, hbefore, m', hx, rfl⟩
    obtain ⟨before, rest, rfl, rfl, hrest⟩ := List.zipIdx_eq_append_iff.mp hsplit
    obtain ⟨x, after, rfl, hx', rfl⟩ := List.zipIdx_eq_cons_iff.mp hrest.symm
    cases hx'
    refine ⟨before, x, after, m', rfl, fun y hy => ?_, hx, by rw [Nat.zero_add]⟩
    obtain ⟨j, hj, rfl⟩ := List.getElem_of_mem hy
    exact hbefore (before[j], j) (List.mk_mem_zipIdx_iff_getElem?.mpr (List.getElem?_eq_getElem hj))
  · rintro ⟨before, x, after, m', rfl, hbefore, hx, rfl⟩
    refine ⟨before.zipIdx, (x, before.length), after.zipIdx (before.length + 1), ?_, ?_, m', hx,
      rfl⟩
    · simp [List.zipIdx_append]
    · exact fun e he => hbefore e.1 (List.fst_mem_of_mem_zipIdx he)

/-- The verdict on an entry. -/
def checkEntry (checkKey check : Value → Except Mismatch Unit) (e : MapKey × Value) :
    Except Mismatch Unit := do
  checkPart (.key e.1) (checkKey e.1.toValue)
  checkPart (.key e.1) (check e.2)

/-- **A map fails at its first entry that does**, for its key or else for its value. -/
theorem checkEntries_eq_error {checkKey check : Value → Except Mismatch Unit}
    {es : List (MapKey × Value)} :
    checkEntries checkKey check es = .error m ↔ ∃ before key x after m',
      es = before ++ (key, x) :: after ∧
      (∀ e ∈ before, checkKey e.1.toValue = .ok () ∧ check e.2 = .ok ()) ∧
      (checkKey key.toValue = .error m' ∨
        checkKey key.toValue = .ok () ∧ check x = .error m') ∧ m = m'.within (.key key) := by
  have hforM : checkEntries checkKey check es = es.forM (checkEntry checkKey check) := by
    induction es with
    | nil => rfl
    | cons e es ih =>
      have hcons : (e :: es).forM (checkEntry checkKey check) =
        (checkEntry checkKey check e >>= fun _ => es.forM (checkEntry checkKey check)) := rfl
      rw [hcons, ← ih, checkEntry, bind_assoc]
      rfl
  rw [hforM, Except.forM_eq_error]
  simp only [checkEntry, Except.then_eq_ok, Except.then_eq_error, checkPart_eq_ok,
    checkPart_eq_error]
  constructor
  · rintro ⟨before, ⟨key, x⟩, after, rfl, hbefore, ⟨m', hkey, rfl⟩ | ⟨hkey, m', hx, rfl⟩⟩
    · exact ⟨before, key, x, after, m', rfl, hbefore, .inl hkey, rfl⟩
    · exact ⟨before, key, x, after, m', rfl, hbefore, .inr ⟨hkey, hx⟩, rfl⟩
  · rintro ⟨before, key, x, after, m', rfl, hbefore, hkey | ⟨hkey, hx⟩, rfl⟩
    · exact ⟨before, (key, x), after, rfl, hbefore, .inl ⟨m', hkey, rfl⟩⟩
    · exact ⟨before, (key, x), after, rfl, hbefore, .inr ⟨hkey, m', hx, rfl⟩⟩

/-- The verdict on a declared field. -/
def checkField (kind : Option String) (fs : List (String × Value)) (f : String × Ty) :
    Except Mismatch Unit :=
  match fs.lookup f.1 with
  | some x => checkPart (.field f.1) (x.check f.2)
  | Option.none => .error ⟨.field f.1, (record kind fs).typeName, []⟩

theorem checkField_eq_ok {kind : Option String} {fs : List (String × Value)} {f : String × Ty} :
    checkField kind fs f = .ok () ↔ FieldFits fs f := by
  rw [checkField, FieldFits]
  cases fs.lookup f.1 <;> simp [checkPart_eq_ok, Fits]

/-- **A record fails at the first declared field that does**: its value does not fit, or it has
none. -/
theorem checkFields_eq_error {fields : List (String × Ty)} {kind : Option String}
    {fs : List (String × Value)} :
    checkFields fields kind fs = .error m ↔ ∃ before name u after,
      fields = before ++ (name, u) :: after ∧ (∀ f ∈ before, FieldFits fs f) ∧
      ((∃ x m', fs.lookup name = Option.some x ∧ x.check u = .error m' ∧
          m = m'.within (.field name)) ∨
        fs.lookup name = Option.none ∧ m = ⟨.field name, (record kind fs).typeName, []⟩) := by
  have hforM : checkFields fields kind fs = fields.forM (checkField kind fs) := by
    induction fields with
    | nil => rfl
    | cons f fields ih =>
      have hcons : (f :: fields).forM (checkField kind fs) =
        (checkField kind fs f >>= fun _ => fields.forM (checkField kind fs)) := rfl
      rw [hcons, ← ih, checkFields, checkField]
      cases fs.lookup f.1 <;> rfl
  have herror : ∀ f, checkField kind fs f = .error m ↔
      (∃ x m', fs.lookup f.1 = Option.some x ∧ x.check f.2 = .error m' ∧
          m = m'.within (.field f.1)) ∨
        fs.lookup f.1 = Option.none ∧ m = ⟨.field f.1, (record kind fs).typeName, []⟩ := by
    intro f
    rw [checkField]
    cases fs.lookup f.1 <;> simp [checkPart_eq_error, @eq_comm _ m]
  rw [hforM, Except.forM_eq_error]
  simp only [checkField_eq_ok, herror, Prod.exists]

end Parts

/-! ## A whole check -/

/-- A check goes by the type behind the aliases. -/
theorem checkAs_canonical {s : Ty} {v : Value} : ∀ {t : Ty}, checkAs s t.canonical v = checkAs s t v
  | .aliased _ t => checkAs_canonical (t := t)
  | .any | .string | .int | .float | .bool | .none | .never | .func _ _ | .list _ | .map _ _
  | .struct _ | .option _ | .some _ | .object _ => rfl

/-- What a check fails with is the first misfit; `s` is the type as it was written. -/
theorem firstMisfit_of_checkAs : ∀ {s t : Ty} {v : Value} {m : Mismatch},
    s.canonical = t.canonical → checkAs s t v = .error m → FirstMisfit s v m
  | _, .aliased _ t, _, _, hs, h => firstMisfit_of_checkAs (t := t) hs h
  | _, .any, _, _, _, h => by cases h
  | s, .string, v, _, hs, h | s, .int, v, _, hs, h | s, .float, v, _, hs, h | s, .bool, v, _, hs, h
  | s, .none, v, _, hs, h | s, .never, v, _, hs, h | s, .func _ _, v, _, hs, h => by
    cases v <;> cases h <;> exact .form (by rw [RefusedAs, hs]; nofun)
  | s, .option u, v, m, hs, h => by
    by_cases hv : v = .none
    · subst hv
      cases h
    · have hinner : checkAs u u v = .error m := by
        cases v <;> first | exact h | exact absurd rfl hv
      exact .option hs hv (firstMisfit_of_checkAs rfl hinner)
  | s, .some u, v, m, hs, h => by
    by_cases hv : v = .none
    · subst hv
      cases h
      exact .form (by rw [RefusedAs, hs]; rfl)
    · have hinner : checkAs u u v = .error m := by
        cases v <;> first | exact h | exact absurd rfl hv
      exact .some hs hv (firstMisfit_of_checkAs rfl hinner)
  | s, .list u, v, m, hs, h => by
    cases v with
    | list vs =>
      obtain ⟨before, x, after, m', rfl, hbefore, hx, rfl⟩ := checkItems_eq_error.mp h
      exact .item hs hbefore (firstMisfit_of_checkAs rfl hx)
    | _ =>
      cases h
      exact .form (by rw [RefusedAs, hs]; nofun)
  | s, .map k u, v, m, hs, h => by
    cases v with
    | map es =>
      obtain ⟨before, key, x, after, m', rfl, hbefore, hx, rfl⟩ := checkEntries_eq_error.mp h
      obtain hkey | ⟨hkey, hx⟩ := hx
      · exact .key hs hbefore (firstMisfit_of_checkAs rfl hkey)
      · exact .value hs hbefore hkey (firstMisfit_of_checkAs rfl hx)
    | _ =>
      cases h
      exact .form (by rw [RefusedAs, hs]; nofun)
  | s, .struct fields, v, m, hs, h => by
    cases v with
    | record kind fs =>
      obtain ⟨before, name, u, after, hfields, hbefore, hu⟩ := checkFields_eq_error.mp h
      have hs' : s.canonical = .struct (before ++ (name, u) :: after) := hfields ▸ hs
      obtain ⟨x, m', hfound, hx, rfl⟩ | ⟨hmissing, rfl⟩ := hu
      · have hlt : sizeOf u < sizeOf fields :=
          Entries.sizeOf_lt_of_mem (e := (name, u)) (by simp [hfields])
        exact .field hs' hbefore hfound (firstMisfit_of_checkAs rfl hx)
      · exact .lacks hs' hbefore hmissing
    | _ =>
      cases h
      exact .form (by rw [RefusedAs, hs]; nofun)
  | s, .object name, v, m, hs, h => by
    have hrefused : RefusedAs s v := by
      rw [RefusedAs, hs]
      intro hv
      rw [show checkAs s (.object name) v = .ok () from checkAs_eq_ok hv] at h
      cases h
    have hm : m = ⟨.type s, v.typeName, []⟩ := by
      rcases v with _ | _ | _ | _ | _ | _ | _ | ⟨_ | kind, fs⟩ | _
      case record.some =>
        rw [checkAs] at h
        split at h <;> cases h
        rfl
      all_goals
        cases h
        rfl
    exact hm ▸ .form hrefused
termination_by _ t => sizeOf t

/-- A value refused for its form is no further looked at. -/
theorem RefusedAs.check {t : Ty} {v : Value} (h : RefusedAs t v) :
    v.check t = .error ⟨.type t, v.typeName, []⟩ := by
  rw [RefusedAs] at h
  rw [Value.check, ← checkAs_canonical]
  generalize hc : t.canonical = c at h ⊢
  cases c with
  | aliased => exact absurd hc Ty.canonical_ne_aliased
  | option => exact h.elim
  | some =>
    subst h
    rfl
  | list | map => cases v <;> first | rfl | exact absurd rfl (h _)
  | struct => cases v <;> first | rfl | exact absurd rfl (h _ _)
  | object name =>
    rcases v with _ | _ | _ | _ | _ | _ | _ | ⟨_ | kind, fs⟩ | _
    case record.some =>
      rw [checkAs, if_neg]
      · rfl
      · rintro rfl
        exact h (fits_object.mpr ⟨_, rfl⟩)
    all_goals rfl
  | _ => cases v <;> first | rfl | exact absurd rfl h

/-- The first misfit is what a check fails with. -/
theorem FirstMisfit.check {t : Ty} {v : Value} {m : Mismatch} (h : FirstMisfit t v m) :
    v.check t = .error m := by
  induction h with
  | form refused => exact refused.check
  | lacks form fit missing =>
    rw [Value.check, ← checkAs_canonical, form, checkAs]
    exact checkFields_eq_error.mpr ⟨_, _, _, _, rfl, fit, .inr ⟨missing, rfl⟩⟩
  | @option t u v m form present _ ih =>
    rw [Value.check, ← checkAs_canonical, form]
    cases v <;> first | exact ih | exact absurd rfl present
  | @some t u v m form present _ ih =>
    rw [Value.check, ← checkAs_canonical, form]
    cases v <;> first | exact ih | exact absurd rfl present
  | item form fit _ ih =>
    rw [Value.check, ← checkAs_canonical, form, checkAs]
    exact checkItems_eq_error.mpr ⟨_, _, _, _, rfl, fit, ih, rfl⟩
  | key form fit _ ih =>
    rw [Value.check, ← checkAs_canonical, form, checkAs]
    exact checkEntries_eq_error.mpr ⟨_, _, _, _, _, rfl, fit, .inl ih, rfl⟩
  | value form fit keyFits _ ih =>
    rw [Value.check, ← checkAs_canonical, form, checkAs]
    exact checkEntries_eq_error.mpr ⟨_, _, _, _, _, rfl, fit, .inr ⟨keyFits, ih⟩, rfl⟩
  | field form fit found _ ih =>
    rw [Value.check, ← checkAs_canonical, form, checkAs]
    exact checkFields_eq_error.mpr ⟨_, _, _, _, rfl, fit, .inl ⟨_, _, found, ih, rfl⟩⟩

/-- **A check fails with the first misfit**, and only with it. -/
theorem check_eq_error_iff {t : Ty} {v : Value} {m : Mismatch} :
    v.check t = .error m ↔ FirstMisfit t v m :=
  ⟨firstMisfit_of_checkAs rfl, FirstMisfit.check⟩

/-! ## Where it leads -/

/-- A key has no parts. -/
theorem FirstMisfit.of_key {t : Ty} {key : MapKey} {m : Mismatch}
    (h : FirstMisfit t key.toValue m) : m.path = [] ∧ m.found = key.toValue.typeName := by
  generalize hv : key.toValue = v at h
  induction h with
  | form => exact ⟨rfl, rfl⟩
  | option _ _ _ ih | some _ _ _ ih => exact ih hv
  | lacks | item | key | value | field => cases key <;> cases hv

/-- The record has no field of the name. -/
def Lacks (w : Value) (name : String) : Prop :=
  ∃ kind fs, w = .record kind fs ∧ fs.lookup name = Option.none

/-- What a mismatch says of the part that its path leads to. -/
inductive Describes (m : Mismatch) (w : Value) : Prop
  | type (found : m.found = w.typeName)
  | field {name} (found : m.found = w.typeName ++ " without it")
      (expected : m.expected = "field '" ++ name ++ "'") (lacks : w.Lacks name)
  | key {key} (last : m.path.getLast? = Option.some (.key key))
      (found : m.found = key.toValue.typeName)

theorem Describes.within {m : Mismatch} {w : Value} {segment : PathSegment} (h : Describes m w) :
    Describes (m.within segment) w := by
  cases h with
  | type found => exact .type found
  | field found expected lacks => exact .field found expected lacks
  | @key key last found => exact .key (by simp [Mismatch.within, List.getLast?_cons, last]) found

theorem keyed_item {vs : List Value} {x : Value} (h : (list vs).Keyed) (hx : x ∈ vs) : x.Keyed := by
  cases h with
  | list items => exact items x hx

/-- **The path of the first misfit leads to the part that it describes.** -/
theorem FirstMisfit.leads {t : Ty} {v : Value} {m : Mismatch} (h : FirstMisfit t v m)
    (hv : v.Keyed) : ∃ w, v.follow m.path = Option.some w ∧ Describes m w := by
  induction h with
  | form => exact ⟨_, rfl, .type rfl⟩
  | lacks _ _ missing => exact ⟨_, rfl, .field rfl rfl ⟨_, _, rfl, missing⟩⟩
  | option _ _ _ ih | some _ _ _ ih => exact ih hv
  | @item t u before x after m _ _ _ ih =>
    have hx : part? (.list (before ++ x :: after)) (.index before.length) = Option.some x := by
      simp [part?]
    obtain ⟨w, hw, hdescribes⟩ := ih (keyed_item hv (by simp))
    exact ⟨w, (follow_cons hx).trans hw, hdescribes.within⟩
  | @key t k u before key x after m _ _ misfit _ =>
    have hx : part? (.map (before ++ (key, x) :: after)) (.key key) = Option.some x :=
      lookup_of_mem (keyed_map.mp hv).1 (by simp)
    obtain ⟨hpath, hfound⟩ := misfit.of_key
    have hlast : (m.within (.key key)).path = [.key key] := by rw [Mismatch.within, hpath]
    exact ⟨x, by rw [hlast, follow_cons hx]; rfl, .key (by rw [hlast]; rfl) hfound⟩
  | @value t k u before key x after m _ _ _ _ ih =>
    have hx : part? (.map (before ++ (key, x) :: after)) (.key key) = Option.some x :=
      lookup_of_mem (keyed_map.mp hv).1 (by simp)
    obtain ⟨w, hw, hdescribes⟩ := ih ((keyed_map.mp hv).2 (key, x) (by simp))
    exact ⟨w, (follow_cons hx).trans hw, hdescribes.within⟩
  | @field t kind fs before name u after x m _ _ found _ ih =>
    have hx : part? (.record kind fs) (.field name) = Option.some x := found
    obtain ⟨w, hw, hdescribes⟩ := ih ((keyed_record.mp hv).2 _ (mem_of_lookup found))
    exact ⟨w, (follow_cons hx).trans hw, hdescribes.within⟩

/-- **A mismatch leads to the first part that does not fit**: it is the first misfit, so that
all the check visits before the parts on its path passes; and its path can be followed, to the
part whose type it names, to a record that lacks the field it names, or by a last step to the
key whose type it names. -/
theorem check_leads_to_misfit {t : Ty} {v : Value} {m : Mismatch} (hv : v.Keyed)
    (h : v.check t = .error m) :
    FirstMisfit t v m ∧ ∃ w, v.follow m.path = Option.some w ∧ Describes m w := by
  have hfirst : FirstMisfit t v m := check_eq_error_iff.mp h
  exact ⟨hfirst, hfirst.leads hv⟩

/-- An item of the wrong type, two steps down in the second entry: its path leads to it. -/
theorem check_leads_to_misfit_entries :
    (map [(.string "a", list [int 1]), (.string "b", list [int 2, string "x"])]).check
        (.map .string (.option (.list .int))) =
      .error ⟨.type .int, "string", [.key (.string "b"), .index 1]⟩ ∧
    ∃ w, (map [(.string "a", list [int 1]), (.string "b", list [int 2, string "x"])]).follow
        [.key (.string "b"), .index 1] = Option.some w ∧
      Describes ⟨.type .int, "string", [.key (.string "b"), .index 1]⟩ w := by
  have hcheck : (map [(.string "a", list [int 1]), (.string "b", list [int 2, string "x"])]).check
      (.map .string (.option (.list .int))) =
        .error ⟨.type .int, "string", [.key (.string "b"), .index 1]⟩ := rfl
  have hkeyed :
      (map [(.string "a", list [int 1]), (.string "b", list [int 2, string "x"])]).Keyed := by
    refine .map (by decide) ?_
    simp only [List.forall_mem_cons]
    refine ⟨.list ?_, .list ?_, List.forall_mem_nil _⟩
    · simpa using Keyed.int
    · simpa using ⟨Keyed.int, Keyed.string⟩
  exact ⟨hcheck, (check_leads_to_misfit hkeyed hcheck).2⟩

end Value

end Ascription
