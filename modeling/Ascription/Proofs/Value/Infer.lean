import Ascription.Proofs.Entries
import Ascription.Proofs.Value.Fits

/-!
# Proofs/Value/Infer — which values fit an inferred type

    infer v = t    ⟹    w fits t  ⟺  w is shaped like the front of v

Inference follows the first entry of every list and map and looks at no other.  A value need not fit
its own type, then: it does when it is shaped like its own front all the way down.
-/

namespace Ascription

namespace Value

/-- **Being shaped like the front of a value**: like the scalar it is, like its kind, or part by
part like its fields and the first entry of its lists and maps. -/
inductive Shaped : Value → Value → Prop
  | string {s s'} : Shaped (.string s) (.string s')
  | int {n n'} : Shaped (.int n) (.int n')
  | float {x x'} : Shaped (.float x) (.float x')
  | bool {b b'} : Shaped (.bool b) (.bool b')
  | none : Shaped .none .none
  | list {v vs ws} (items : ∀ w ∈ ws, Shaped v w) : Shaped (.list (v :: vs)) (.list ws)
  | map {k v es fs} (keys : ∀ f ∈ fs, f.1.type = k.type) (values : ∀ f ∈ fs, Shaped v f.2) :
      Shaped (.map ((k, v) :: es)) (.map fs)
  | object {kind es fs} : Shaped (.record (Option.some kind) es) (.record (Option.some kind) fs)
  | anonymous {kind es fs} (present : ∀ e ∈ es, ∃ w, fs.lookup e.1 = Option.some w)
      (fields : ∀ e ∈ es, ∀ w, fs.lookup e.1 = Option.some w → Shaped e.2 w) :
      Shaped (.record Option.none es) (.record kind fs)

/-- **A uniform value**: the entries of each list and map in it, the records of a host aside, are
shaped like the first. -/
def Uniform (v : Value) : Prop := Shaped v v

section

variable {v w : Value} {vs : List Value} {k : MapKey} {es : List (MapKey × Value)}
  {fields : List (String × Value)}

theorem shaped_list : Shaped (.list (v :: vs)) w ↔ ∃ ws, w = .list ws ∧ ∀ w ∈ ws, Shaped v w := by
  constructor
  · intro h
    cases h with
    | list items => exact ⟨_, rfl, items⟩
  · rintro ⟨ws, rfl, items⟩
    exact .list items

theorem shaped_map :
    Shaped (.map ((k, v) :: es)) w ↔
      ∃ fs, w = .map fs ∧ ∀ f ∈ fs, f.1.type = k.type ∧ Shaped v f.2 := by
  constructor
  · intro h
    cases h with
    | map keys values => exact ⟨_, rfl, fun f hf => ⟨keys f hf, values f hf⟩⟩
  · rintro ⟨fs, rfl, hfs⟩
    exact .map (fun f hf => (hfs f hf).1) fun f hf => (hfs f hf).2

theorem shaped_anonymous :
    Shaped (.record Option.none fields) w ↔ ∃ kind fs, w = .record kind fs ∧
      ∀ e ∈ fields, ∃ w, fs.lookup e.1 = Option.some w ∧ Shaped e.2 w := by
  constructor
  · intro h
    cases h with
    | anonymous present shaped =>
      refine ⟨_, _, rfl, fun e he => ?_⟩
      obtain ⟨w, hw⟩ := present e he
      exact ⟨w, hw, shaped e he w hw⟩
  · rintro ⟨kind, fs, rfl, hfs⟩
    refine .anonymous (fun e he => (hfs e he).imp fun w => And.left) fun e he w hw => ?_
    obtain ⟨w', hw', hshaped⟩ := hfs e he
    cases hw.symm.trans hw'
    exact hshaped

/-- A list is uniform when its items are shaped like the first. -/
theorem uniform_list : Uniform (.list (v :: vs)) ↔ ∀ w ∈ v :: vs, Shaped v w :=
  shaped_list.trans ⟨by rintro ⟨_, ⟨⟩, items⟩; exact items, fun items => ⟨_, rfl, items⟩⟩

/-- A record that binds each field once is uniform when its fields are. -/
theorem uniform_anonymous (h : (fields.map Prod.fst).Nodup) :
    Uniform (.record Option.none fields) ↔ ∀ e ∈ fields, Uniform e.2 := by
  have hlookup : ∀ e ∈ fields, fields.lookup e.1 = Option.some e.2 :=
    fun e he => Entries.lookup_of_mem h he
  refine shaped_anonymous.trans ⟨?_, fun huniform => ?_⟩
  · rintro ⟨_, _, ⟨⟩, hfields⟩ e he
    obtain ⟨w, hw, hshaped⟩ := hfields e he
    cases (hlookup e he).symm.trans hw
    exact hshaped
  · exact ⟨_, _, rfl, fun e he => ⟨e.2, hlookup e he, huniform e he⟩⟩

end

/-! ## Fitting an inferred type -/

theorem fits_keyType {k k' : MapKey} : Fits k.type k'.toValue ↔ k'.type = k.type := by
  cases k <;> cases k' <;> simp [Fits, check, checkAs, misfit, MapKey.type, MapKey.toValue]

mutual

/-- **What fits the type of a value** is what is shaped like its front. -/
theorem fits_infer : ∀ {v : Value} {t : Ty}, infer v = .ok t → ∀ {w}, Fits t w ↔ Shaped v w
  | .string s, _, h, w => by
    cases h
    rw [fits_string]
    exact ⟨fun ⟨_, hw⟩ => hw ▸ .string, fun h => by cases h; exact ⟨_, rfl⟩⟩
  | .int n, _, h, w => by
    cases h
    rw [fits_int]
    exact ⟨fun ⟨_, hw⟩ => hw ▸ .int, fun h => by cases h; exact ⟨_, rfl⟩⟩
  | .float x, _, h, w => by
    cases h
    rw [fits_float]
    exact ⟨fun ⟨_, hw⟩ => hw ▸ .float, fun h => by cases h; exact ⟨_, rfl⟩⟩
  | .bool b, _, h, w => by
    cases h
    rw [fits_bool]
    exact ⟨fun ⟨_, hw⟩ => hw ▸ .bool, fun h => by cases h; exact ⟨_, rfl⟩⟩
  | .none, _, h, w => by
    cases h
    rw [fits_none]
    exact ⟨fun hw => hw ▸ .none, fun h => by cases h; rfl⟩
  | .list (v :: vs), _, h, w => by
    obtain ⟨t, ht, rfl⟩ := Except.map_eq_ok.mp h
    simp only [fits_list, shaped_list, fits_infer ht]
  | .map ((k, v) :: es), _, h, w => by
    obtain ⟨t, ht, rfl⟩ := Except.map_eq_ok.mp h
    simp only [fits_map, shaped_map, fits_keyType, fits_infer ht]
  | .record (Option.some kind) es, _, h, w => by
    cases h
    rw [fits_object]
    exact ⟨fun ⟨fs, hw⟩ => hw ▸ .object, fun h => by cases h; exact ⟨_, rfl⟩⟩
  | .record Option.none es, _, h, w => by
    obtain ⟨ts, hts, rfl⟩ := Except.map_eq_ok.mp h
    simp only [fits_struct, shaped_anonymous, fits_inferFields hts]

theorem fits_inferFields : ∀ {es : List (String × Value)} {ts : List (String × Ty)},
    inferFields es = .ok ts → ∀ {fs : List (String × Value)},
      (∀ f ∈ ts, ∃ w, fs.lookup f.1 = Option.some w ∧ Fits f.2 w) ↔
        ∀ e ∈ es, ∃ w, fs.lookup e.1 = Option.some w ∧ Shaped e.2 w
  | [], _, h, fs => by
    cases h
    exact iff_of_true (List.forall_mem_nil _) (List.forall_mem_nil _)
  | (name, v) :: es, _, h, fs => by
    obtain ⟨t, ht, h⟩ := Except.bind_eq_ok.mp h
    obtain ⟨ts, hts, h⟩ := Except.bind_eq_ok.mp h
    cases h
    simp only [List.forall_mem_cons, fits_infer ht, fits_inferFields hts]

end

/-- **A value fits its own type exactly when it is uniform.** -/
theorem fits_self_iff_uniform {v : Value} {t : Ty} (h : infer v = .ok t) : Fits t v ↔ Uniform v :=
  fits_infer h

end Value

end Ascription
