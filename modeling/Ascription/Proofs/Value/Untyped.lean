import Ascription.Proofs.Except
import Ascription.Proofs.Json
import Ascription.Proofs.Value.Json
import Ascription.Proofs.Value.Related
import Mathlib.Data.List.Induction

/-!
# Proofs/Value/Untyped — documents read without a type

    j  ──ofJson none──▸  v  ──toJson──▸  j   with the members of its objects sorted

A number has three forms, and an object is listed in three ways: as its members come, as the fields
of a record, and sorted by name.  Where no type is wanted a number keeps its form on the way there
and back, and an object the members that count.  Nothing is refused but an integer that is too wide.
-/

namespace Ascription

/-! ## Numbers -/

namespace JsonNumber

/-- **A number too wide**: an integer beyond those of 64 bits with a sign. -/
inductive Wide : JsonNumber → Prop
  | natural {n : UInt64} (h : 2 ^ 63 ≤ n.toNat) : Wide (.natural n)

/-- **A number that is read as an integer is the one that integer is written as.** -/
theorem ofInt64_of_toInt64? {n : JsonNumber} {i : Int64} (h : n.toInt64? = some i) :
    ofInt64 i = n := by
  cases n with
  | natural n =>
    rw [toInt64?] at h
    split at h
    case isTrue hn =>
      cases h
      have hint : (Int64.ofNat n.toNat).toInt = n.toNat := Int64.toInt_ofNat_of_lt hn
      have hge : ¬ Int64.ofNat n.toNat < 0 := by
        rw [Int64.lt_iff_toInt_lt, hint, Int64.toInt_zero]
        omega
      rw [ofInt64, dif_neg hge, hint, Int.toNat_natCast]
      exact congrArg natural UInt64.ofNat_toNat
    case isFalse => cases h
  | negative n hn =>
    cases h
    rw [ofInt64, dif_pos hn]
  | float => cases h

/-- A number that is no integer of 64 bits with a sign is wide or a float. -/
theorem wide_of_toInt64? {n : JsonNumber} (h : n.toInt64? = none)
    (hfloat : ∀ x hx, n ≠ .float x hx) : n.Wide := by
  cases n with
  | natural n =>
    rw [toInt64?] at h
    split at h
    case isTrue => cases h
    case isFalse hn => exact .natural (by omega)
  | negative => cases h
  | float x hx => exact absurd rfl (hfloat x hx)

theorem not_wide_of_toInt64? {n : JsonNumber} {i : Int64} (h : n.toInt64? = some i) : ¬ n.Wide := by
  rintro ⟨hn⟩
  rw [toInt64?, if_neg (by omega)] at h
  cases h

end JsonNumber

/-! ## Documents that say the same -/

namespace Json

/-- **A document with a wide number in it**, at any depth. -/
inductive HasWide : Json → Prop
  | number {n} (h : n.Wide) : HasWide (.number n)
  | item {j js} (hmem : j ∈ js) (h : HasWide j) : HasWide (.array js)
  | member {m ms} (hmem : m ∈ ms) (h : HasWide m.2) : HasWide (.object ms)

/-- **Documents that say the same**: an object is the map from each name to its member, of several
members of one name the last. -/
inductive Same : Json → Json → Prop
  | null : Same .null .null
  | bool {b} : Same (.bool b) (.bool b)
  | number {n} : Same (.number n) (.number n)
  | string {s} : Same (.string s) (.string s)
  | array {js ks} (items : List.Forall₂ Same js ks) : Same (.array js) (.array ks)
  | object {ms ns}
      (members : ∀ name, Option.Rel Same (ms.reverse.lookup name) (ns.reverse.lookup name)) :
      Same (.object ms) (.object ns)

theorem hasWide_array {js : List Json} : HasWide (.array js) ↔ ∃ j ∈ js, HasWide j := by
  constructor
  · rintro (_ | ⟨hmem, h⟩)
    exact ⟨_, hmem, h⟩
  · rintro ⟨j, hmem, h⟩
    exact .item hmem h

theorem hasWide_object {ms : List (String × Json)} :
    HasWide (.object ms) ↔ ∃ m ∈ ms, HasWide m.2 := by
  constructor
  · rintro (_ | _ | ⟨hmem, h⟩)
    exact ⟨_, hmem, h⟩
  · rintro ⟨m, hmem, h⟩
    exact .member hmem h

end Json

/-! ## Members on the way there and back -/

namespace Entries

variable {K V W : Type} [DecidableEq K]

/-- **Written in turn, the last entry of a key counts.** -/
theorem lookup_ofList {entries : List (K × V)} {k : K} :
    (ofList entries).lookup k = entries.reverse.lookup k := by
  induction entries using List.reverseRecOn with
  | nil => rfl
  | append_singleton es e ih =>
    rw [List.reverse_append, List.reverse_singleton, List.singleton_append, ofList, insertAll,
      List.foldl_append, List.foldl_cons, List.foldl_nil, ← insertAll, ← ofList]
    by_cases hk : k = e.1
    · rw [hk, lookup_insert_self, List.lookup_cons_self]
    · rw [lookup_insert_of_ne hk, ih, lookup_cons_of_ne hk]

/-- Where no key is repeated the order makes no difference to what is looked up. -/
theorem lookup_perm {entries others : List (K × V)} (hnodup : (entries.map Prod.fst).Nodup)
    (h : others.Perm entries) {k : K} : others.lookup k = entries.lookup k := by
  have hothers : (others.map Prod.fst).Nodup := (h.map Prod.fst).nodup_iff.mpr hnodup
  refine Option.ext fun v => ?_
  constructor
  · exact fun hv => lookup_of_mem hnodup (h.mem_iff.mp (mem_of_lookup hv))
  · exact fun hv => lookup_of_mem hothers (h.mem_iff.mpr (mem_of_lookup hv))

omit [DecidableEq K] in
theorem Related.reverse {P : V → W → Prop} {es : List (K × V)} {fs : List (K × W)}
    (h : Related P es fs) : Related P es.reverse fs.reverse := by
  induction h with
  | nil => exact .nil
  | cons value _ ih =>
    rw [List.reverse_cons, List.reverse_cons]
    exact ih.append (.cons value .nil)

end Entries

namespace Json

/-- **A sorted object has the members that were written**, when no name is repeated. -/
theorem lookup_sortMembers {ms : List (String × Json)} (h : (ms.map Prod.fst).Nodup)
    {name : String} : (sortMembers ms).reverse.lookup name = ms.lookup name :=
  Entries.lookup_perm h ((List.reverse_perm _).trans (sortMembers_perm h))

end Json

namespace Value

open Json

/-- **A record written as an object says what its fields were read from.** -/
theorem same_anonymous {fields : List (String × Value)} {ms : List (String × Json)}
    (h : Entries.Related (fun v j => Same v.toJson j) fields ms) :
    Same (anonymous fields).toJson (.object ms) := by
  have hnodup : (((Entries.ofList fields).map fun f => (f.1, f.2.toJson)).map Prod.fst).Nodup := by
    rw [List.map_map]
    exact Entries.nodup_insertAll List.nodup_nil
  rw [anonymous, toJson, toJsonFields_eq_map, Json.sorted]
  refine .object fun name => ?_
  rw [lookup_sortMembers hnodup, Entries.lookup_map, Entries.lookup_ofList]
  have hfield := h.reverse.lookup name
  generalize fields.reverse.lookup name = v?, ms.reverse.lookup name = j? at hfield
  cases hfield with
  | none => exact .none
  | some same => exact .some same

/-! ## Numbers without a type -/

theorem same_of_ofJsonNumber {n : JsonNumber} {v : Value} (h : ofJsonNumber Option.none n = .ok v) :
    Same v.toJson (.number n) ∧ ¬ n.Wide := by
  cases n with
  | float x finite =>
    cases h
    rw [toJson, JsonNumber.ofBinary64?, dif_pos finite]
    refine ⟨.number, fun hwide => ?_⟩
    cases hwide
  | _ n =>
    rw [ofJsonNumber] at h
    case x_1 => simp
    case x_2 => simp
    split at h
    case h_1 i hi =>
      cases h
      rw [toJson, JsonNumber.ofInt64_of_toInt64? hi]
      exact ⟨.number, JsonNumber.not_wide_of_toInt64? hi⟩
    case h_2 => cases h

theorem wide_of_ofJsonNumber {n : JsonNumber} {e : JsonValueError}
    (h : ofJsonNumber Option.none n = .error e) : n.Wide ∧ e = .notAnInt n := by
  cases n with
  | float => cases h
  | _ n =>
    rw [ofJsonNumber] at h
    case x_1 => simp
    case x_2 => simp
    split at h
    case h_1 => cases h
    case h_2 hi =>
      cases h
      exact ⟨JsonNumber.wide_of_toInt64? hi (by simp), rfl⟩

/-! ## Documents without a type -/

mutual

/-- **What is read says the same when it is written**, and nothing in the document is too wide. -/
theorem same_of_ofJson : ∀ {j : Json} {v : Value}, ofJson Option.none j = .ok v →
    Same v.toJson j ∧ ¬ j.HasWide
  | .null, _, h => by
    cases h
    exact ⟨.null, nofun⟩
  | .bool _, _, h => by
    cases h
    exact ⟨.bool, nofun⟩
  | .string _, _, h => by
    cases h
    exact ⟨.string, nofun⟩
  | .number n, v, h => by
    obtain ⟨hsame, hwide⟩ := same_of_ofJsonNumber h
    exact ⟨hsame, fun | .number h => hwide h⟩
  | .array js, v, h => by
    obtain ⟨vs, hvs, hv⟩ := Except.bind_eq_ok.mp h
    cases hv
    obtain ⟨hsame, hwide⟩ := same_of_ofJsonItems hvs
    rw [hasWide_array, not_exists]
    exact ⟨.array hsame, fun j ⟨hmem, h⟩ => hwide j hmem h⟩
  | .object ms, v, h => by
    obtain ⟨fields, hfields, hv⟩ := Except.bind_eq_ok.mp h
    cases hv
    obtain ⟨hsame, hwide⟩ := same_of_ofJsonMembers hfields
    rw [hasWide_object, not_exists]
    exact ⟨same_anonymous hsame, fun m ⟨hmem, h⟩ => hwide m hmem h⟩

theorem same_of_ofJsonItems : ∀ {js : List Json} {vs : List Value},
    ofJsonItems Option.none js = .ok vs →
    List.Forall₂ Same (toJsonItems vs) js ∧ ∀ j ∈ js, ¬ j.HasWide
  | [], _, h => by
    cases h
    exact ⟨.nil, List.forall_mem_nil _⟩
  | j :: js, _, h => by
    obtain ⟨v, hv, h⟩ := Except.bind_eq_ok.mp h
    obtain ⟨vs, hvs, h⟩ := Except.bind_eq_ok.mp h
    cases h
    obtain ⟨hsame, hwide⟩ := same_of_ofJson hv
    obtain ⟨hsames, hwides⟩ := same_of_ofJsonItems hvs
    exact ⟨.cons hsame hsames, List.forall_mem_cons.mpr ⟨hwide, hwides⟩⟩

theorem same_of_ofJsonMembers : ∀ {ms : List (String × Json)} {fields : List (String × Value)},
    ofJsonMembers [] ms = .ok fields →
    Entries.Related (fun v j => Same v.toJson j) fields ms ∧ ∀ m ∈ ms, ¬ m.2.HasWide
  | [], _, h => by
    cases h
    exact ⟨.nil, List.forall_mem_nil _⟩
  | (name, j) :: ms, _, h => by
    obtain ⟨v, hv, h⟩ := Except.bind_eq_ok.mp h
    obtain ⟨fields, hfields, h⟩ := Except.bind_eq_ok.mp h
    cases h
    obtain ⟨hsame, hwide⟩ := same_of_ofJson hv
    obtain ⟨hsames, hwides⟩ := same_of_ofJsonMembers hfields
    exact ⟨.cons hsame hsames, List.forall_mem_cons.mpr ⟨hwide, hwides⟩⟩

end

/-- The refusal of a wide number. -/
def RefusesWide (e : JsonValueError) : Prop := ∃ n : JsonNumber, n.Wide ∧ e = .notAnInt n

mutual

/-- **What is refused has a number in it that is too wide**, and that is what the error names. -/
theorem hasWide_of_ofJson : ∀ {j : Json} {e : JsonValueError}, ofJson Option.none j = .error e →
    j.HasWide ∧ RefusesWide e
  | .null, _, h | .bool _, _, h | .string _, _, h => by cases h
  | .number n, _, h => by
    obtain ⟨hwide, he⟩ := wide_of_ofJsonNumber h
    exact ⟨.number hwide, n, hwide, he⟩
  | .array js, _, h => by
    obtain h | ⟨_, _, h⟩ := Except.bind_eq_error.mp h
    · obtain ⟨hwide, he⟩ := hasWide_of_ofJsonItems h
      exact ⟨hasWide_array.mpr hwide, he⟩
    · cases h
  | .object ms, _, h => by
    obtain h | ⟨_, _, h⟩ := Except.bind_eq_error.mp h
    · obtain ⟨hwide, he⟩ := hasWide_of_ofJsonMembers h
      exact ⟨hasWide_object.mpr hwide, he⟩
    · cases h

theorem hasWide_of_ofJsonItems : ∀ {js : List Json} {e : JsonValueError},
    ofJsonItems Option.none js = .error e → (∃ j ∈ js, j.HasWide) ∧ RefusesWide e
  | [], _, h => by cases h
  | j :: js, _, h => by
    obtain h | ⟨_, _, h⟩ := Except.bind_eq_error.mp h
    · obtain ⟨hwide, he⟩ := hasWide_of_ofJson h
      exact ⟨⟨j, List.mem_cons_self, hwide⟩, he⟩
    obtain h | ⟨_, _, h⟩ := Except.bind_eq_error.mp h
    · obtain ⟨⟨k, hk, hwide⟩, he⟩ := hasWide_of_ofJsonItems h
      exact ⟨⟨k, List.mem_cons_of_mem j hk, hwide⟩, he⟩
    · cases h

theorem hasWide_of_ofJsonMembers : ∀ {ms : List (String × Json)} {e : JsonValueError},
    ofJsonMembers [] ms = .error e → (∃ m ∈ ms, m.2.HasWide) ∧ RefusesWide e
  | [], _, h => by cases h
  | (name, j) :: ms, _, h => by
    obtain h | ⟨_, _, h⟩ := Except.bind_eq_error.mp h
    · obtain ⟨hwide, he⟩ := hasWide_of_ofJson h
      exact ⟨⟨_, List.mem_cons_self, hwide⟩, he⟩
    obtain h | ⟨_, _, h⟩ := Except.bind_eq_error.mp h
    · obtain ⟨⟨m, hm, hwide⟩, he⟩ := hasWide_of_ofJsonMembers h
      exact ⟨⟨m, List.mem_cons_of_mem _ hm, hwide⟩, he⟩
    · cases h

end

/-- **A document read without a type passes through unchanged**, or is refused: the one exactly when
no integer in it is too wide, the other exactly when one is. -/
theorem ofJson_untyped (j : Json) :
    (j.HasWide ∧ ∃ n : JsonNumber, n.Wide ∧ ofJson Option.none j = .error (.notAnInt n)) ∨
      (¬ j.HasWide ∧ ∃ v, ofJson Option.none j = .ok v ∧ Same v.toJson j) := by
  cases hread : ofJson Option.none j with
  | error e =>
    obtain ⟨hwide, n, hn, rfl⟩ := hasWide_of_ofJson hread
    exact .inl ⟨hwide, n, hn, rfl⟩
  | ok v =>
    obtain ⟨hsame, hwide⟩ := same_of_ofJson hread
    exact .inr ⟨hwide, v, rfl, hsame⟩

example : (ofJson Option.none (.object [("b", .number (.natural 1)), ("a", .array [.null])])).map
    toJson = .ok (.object [("a", .array [.null]), ("b", .number (.natural 1))]) := rfl

end Value

end Ascription
