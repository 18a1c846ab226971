import Ascription.Declarations
import Ascription.Proofs.Entries
import Ascription.Proofs.Except

/-!
# Proofs/Declarations — tables of variables

A table matters through the names it declares and their types; the spans are for errors only.
-/

namespace Ascription

namespace Declarations

variable {ds es ds' : Declarations} {name : String} {t t' : Ty} {span span' : Span}

theorem find?_mem {d : Declaration} (h : ds.find? name = some d) : d ∈ ds :=
  List.mem_of_find?_eq_some h

theorem find?_eq_none : ds.find? name = none ↔ name ∉ ds.map Declaration.name := by
  simp [find?, List.find?_eq_none]

theorem checkAnnotated_eq_ok (h : ds.checkAnnotated name t span = .ok t') : t' = t := by
  rw [checkAnnotated] at h
  split at h
  · split at h
    · cases h
      rfl
    · cases h
  · cases h
    rfl

theorem declare_eq_ok :
    ds.declare name t span = .ok ds' ↔
      ds.find? name = none ∧ ds' = ds ++ [⟨name, t, span⟩] := by
  rw [declare]
  cases ds.find? name <;> simp [eq_comm]

/-! ## Names and types -/

/-- The declared names with their types. -/
def types (ds : Declarations) : List (String × Ty) := ds.map fun d => (d.name, d.type)

theorem find?_map_type : (ds.find? name).map Declaration.type = ds.types.lookup name := by
  induction ds with
  | nil => rfl
  | cons d ds ih =>
    rw [types, List.map_cons, List.lookup_cons, find?, List.find?_cons, BEq.comm]
    cases name == d.name with
    | true => rfl
    | false => exact ih

section

variable (h : ds.types = es.types)

include h

theorem find?_map_type_congr (name : String) :
    (es.find? name).map Declaration.type = (ds.find? name).map Declaration.type := by
  rw [find?_map_type, find?_map_type, h]

theorem find?_eq_none_congr (hd : ds.find? name = none) : es.find? name = none := by
  have htype := find?_map_type_congr h name
  rw [hd] at htype
  exact Option.map_eq_none_iff.mp htype

theorem find?_eq_some_congr {d : Declaration} (hd : ds.find? name = some d) :
    ∃ d', es.find? name = some d' ∧ d'.type = d.type := by
  have htype := find?_map_type_congr h name
  rw [hd] at htype
  exact Option.map_eq_some_iff.mp htype

theorem declare_congr (hd : ds.declare name t span = .ok ds') :
    ∃ es', es.declare name t span' = .ok es' ∧ ds'.types = es'.types := by
  obtain ⟨hnone, rfl⟩ := declare_eq_ok.mp hd
  exact ⟨_, declare_eq_ok.mpr ⟨find?_eq_none_congr h hnone, rfl⟩, by simpa [types] using h⟩

theorem checkAnnotated_congr (hd : ds.checkAnnotated name t span = .ok t') :
    es.checkAnnotated name t span' = .ok t' := by
  rw [checkAnnotated] at hd ⊢
  cases hfind : ds.find? name with
  | none =>
    rw [hfind] at hd
    rw [find?_eq_none_congr h hfind]
    exact hd
  | some d =>
    obtain ⟨d', hfind', htype⟩ := find?_eq_some_congr h hfind
    simp only [hfind] at hd
    simp only [hfind', htype]
    split at hd
    case isTrue hequal => rwa [if_pos hequal]
    case isFalse => cases hd

end

end Declarations

end Ascription
