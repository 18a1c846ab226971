import Ascription.Entries
import Mathlib.Data.List.Perm.Subperm

/-!
# Proofs/Entries — association lists

Which keys a list knows, and that writing entries with new keys lists them in order.
-/

namespace Ascription

namespace Entries

variable {K V : Type} [DecidableEq K]

theorem mem_of_lookup {entries : List (K × V)} {k : K} {v : V} (h : entries.lookup k = some v) :
    (k, v) ∈ entries := by
  obtain ⟨l₁, l₂, rfl, -⟩ := List.lookup_eq_some_iff.mp h
  simp

theorem lookup_cons_of_ne {entries : List (K × V)} {k k' : K} {v : V} (h : k ≠ k') :
    ((k', v) :: entries).lookup k = entries.lookup k := by
  rw [List.lookup_cons, beq_false_of_ne h]

theorem lookup_map {W : Type} {entries : List (K × V)} {f : V → W} {k : K} :
    (entries.map fun e => (e.1, f e.2)).lookup k = (entries.lookup k).map f := by
  induction entries with
  | nil => rfl
  | cons e es ih =>
    rw [List.map_cons, List.lookup_cons, List.lookup_cons, ih]
    cases k == e.1 <;> rfl

theorem contains_eq_false {entries : List (K × V)} {k : K} :
    contains entries k = false ↔ k ∉ entries.map Prod.fst := by
  rw [contains, Option.isSome_eq_false_iff, Option.isNone_iff_eq_none, List.lookup_eq_none_iff]
  constructor
  · intro h hk
    obtain ⟨e, he, rfl⟩ := List.mem_map.mp hk
    simpa using h e he
  · intro h e he
    rw [bne_iff_ne]
    rintro rfl
    exact h (List.mem_map_of_mem he)

/-- A key that is listed has a value. -/
theorem exists_lookup {entries : List (K × V)} {k : K}
    (h : k ∈ entries.map Prod.fst) : ∃ v, entries.lookup k = some v := by
  rw [← Option.isSome_iff_exists]
  cases hk : (entries.lookup k).isSome with
  | true => rfl
  | false => exact absurd h (contains_eq_false.mp hk)

/-- Which keys are known does not depend on the values. -/
theorem contains_congr {W : Type} {entries : List (K × V)} {others : List (K × W)}
    (h : entries.map Prod.fst = others.map Prod.fst) {k : K} :
    contains entries k = contains others k := by
  have hfalse : contains entries k = false ↔ contains others k = false := by
    rw [contains_eq_false, contains_eq_false, h]
  simpa using hfalse

theorem nodup_concat {entries : List (K × V)} {k : K} {v : V}
    (h : (entries.map Prod.fst).Nodup) (hnew : contains entries k = false) :
    ((entries ++ [(k, v)]).map Prod.fst).Nodup := by
  rw [List.map_append, List.nodup_append]
  refine ⟨h, by simp, fun a ha b hb => ?_⟩
  obtain rfl := List.mem_singleton.mp hb
  rintro rfl
  exact contains_eq_false.mp hnew ha

/-- In a list without repeated keys an entry is what its key looks up. -/
theorem lookup_of_mem {entries : List (K × V)} (hnodup : (entries.map Prod.fst).Nodup) {k : K}
    {v : V} (h : (k, v) ∈ entries) : entries.lookup k = some v := by
  induction entries with
  | nil => cases h
  | cons e es ih =>
    obtain ⟨k', v'⟩ := e
    obtain ⟨hnew, hnodup⟩ := List.nodup_cons.mp hnodup
    obtain heq | hmem := List.mem_cons.mp h
    · cases heq
      exact List.lookup_cons_self
    · have hne : k ≠ k' := by
        rintro rfl
        exact hnew (List.mem_map.mpr ⟨(k, v), hmem, rfl⟩)
      rw [lookup_cons_of_ne hne]
      exact ih hnodup hmem

theorem mem_of_mem_insert {entries : List (K × V)} {k : K} {v : V} {e : K × V}
    (h : e ∈ insert k v entries) : e = (k, v) ∨ e ∈ entries := by
  induction entries with
  | nil => exact .inl (List.mem_singleton.mp h)
  | cons e' es ih =>
    rw [insert] at h
    split at h
    case isTrue hk =>
      subst hk
      exact (List.mem_cons.mp h).imp_right (List.mem_cons_of_mem e')
    case isFalse =>
      obtain rfl | h := List.mem_cons.mp h
      · exact .inr List.mem_cons_self
      · exact (ih h).imp_right (List.mem_cons_of_mem e')

theorem mem_of_mem_insertAll {entries start : List (K × V)} {e : K × V}
    (h : e ∈ insertAll start entries) : e ∈ start ∨ e ∈ entries := by
  induction entries generalizing start with
  | nil => exact .inl h
  | cons e' es ih =>
    obtain h | h := ih h
    · obtain rfl | h := mem_of_mem_insert h
      · exact .inr List.mem_cons_self
      · exact .inl h
    · exact .inr (List.mem_cons_of_mem e' h)

theorem mem_of_mem_ofList {entries : List (K × V)} {e : K × V} (h : e ∈ ofList entries) :
    e ∈ entries := (mem_of_mem_insertAll h).resolve_left nofun

theorem nodup_insert {entries : List (K × V)} {k : K} {v : V}
    (h : (entries.map Prod.fst).Nodup) : ((insert k v entries).map Prod.fst).Nodup := by
  induction entries with
  | nil => simp [insert]
  | cons e es ih =>
    obtain ⟨hnew, h⟩ := List.nodup_cons.mp h
    rw [insert]
    split
    case isTrue hk => exact List.nodup_cons.mpr ⟨hk ▸ hnew, h⟩
    case isFalse hk =>
      refine List.nodup_cons.mpr ⟨fun hmem => ?_, ih h⟩
      obtain ⟨e', he', hkey⟩ := List.mem_map.mp hmem
      obtain rfl | he' := mem_of_mem_insert he'
      · exact hk hkey
      · exact hnew (List.mem_map.mpr ⟨e', he', hkey⟩)

/-- **Writing entries keeps the keys distinct.** -/
theorem nodup_insertAll {entries start : List (K × V)} (h : (start.map Prod.fst).Nodup) :
    ((insertAll start entries).map Prod.fst).Nodup := by
  induction entries generalizing start with
  | nil => exact h
  | cons e es ih => exact ih (nodup_insert h)

theorem lookup_insert_of_ne {entries : List (K × V)} {k k' : K} {v : V} (h : k ≠ k') :
    (insert k' v entries).lookup k = entries.lookup k := by
  induction entries with
  | nil => exact lookup_cons_of_ne h
  | cons e es ih =>
    rw [insert]
    split
    case isTrue hk =>
      subst hk
      rw [lookup_cons_of_ne h, lookup_cons_of_ne h]
    case isFalse => rw [List.lookup_cons, List.lookup_cons, ih]

theorem lookup_insert_self {entries : List (K × V)} {k : K} {v : V} :
    (insert k v entries).lookup k = some v := by
  induction entries with
  | nil => exact List.lookup_cons_self
  | cons e es ih =>
    rw [insert]
    split
    case isTrue hk =>
      subst hk
      exact List.lookup_cons_self
    case isFalse hk => exact (lookup_cons_of_ne hk).trans ih

omit [DecidableEq K] in
theorem sizeOf_lt_of_mem [SizeOf K] [SizeOf V] {entries : List (K × V)} {e : K × V}
    (h : e ∈ entries) : sizeOf e.2 < sizeOf entries := by
  have hlt := List.sizeOf_lt_of_mem h
  obtain ⟨k, v⟩ := e
  simp only [Prod.mk.sizeOf_spec] at hlt ⊢
  omega

/-- A key that is not among those written keeps its value. -/
theorem lookup_insertAll_of_notMem {entries start : List (K × V)} {k : K}
    (h : k ∉ entries.map Prod.fst) : (insertAll start entries).lookup k = start.lookup k := by
  induction entries generalizing start with
  | nil => rfl
  | cons e es ih =>
    obtain ⟨hne, h⟩ : k ≠ e.1 ∧ k ∉ es.map Prod.fst := by simpa using h
    exact (ih h).trans (lookup_insert_of_ne hne)

/-- **The entry written last counts.** -/
theorem lookup_ofList_append {before after : List (K × V)} {k : K} {v : V}
    (h : k ∉ after.map Prod.fst) : (ofList (before ++ (k, v) :: after)).lookup k = some v := by
  rw [ofList, insertAll, List.foldl_append, List.foldl_cons, ← insertAll,
    lookup_insertAll_of_notMem h, lookup_insert_self]

theorem insert_of_notMem {entries : List (K × V)} {k : K} {v : V}
    (h : k ∉ entries.map Prod.fst) : insert k v entries = entries ++ [(k, v)] := by
  induction entries with
  | nil => rfl
  | cons e es ih =>
    obtain ⟨hne, h⟩ : k ≠ e.1 ∧ k ∉ es.map Prod.fst := by simpa using h
    rw [insert, if_neg hne, ih h]
    rfl

theorem insertAll_of_nodup {entries start : List (K × V)}
    (h : ((start ++ entries).map Prod.fst).Nodup) : insertAll start entries = start ++ entries := by
  induction entries generalizing start with
  | nil => exact (List.append_nil start).symm
  | cons e es ih =>
    have hnew : e.1 ∉ start.map Prod.fst := by
      intro he
      rw [List.map_append, List.nodup_append] at h
      exact h.2.2 _ he _ (by simp) rfl
    have hinsert : insert e.1 e.2 start = start ++ [e] := insert_of_notMem hnew
    rw [insertAll, List.foldl_cons, hinsert, ← insertAll, ih (by simpa using h)]
    simp

/-- **A list without repeated keys is its own writing.** -/
theorem ofList_of_nodup {entries : List (K × V)} (h : (entries.map Prod.fst).Nodup) :
    ofList entries = entries := insertAll_of_nodup h

theorem mem_keys_insert {entries : List (K × V)} {k k' : K} {v : V} :
    k ∈ (insert k' v entries).map Prod.fst ↔ k = k' ∨ k ∈ entries.map Prod.fst := by
  induction entries with
  | nil => simp [insert]
  | cons e es ih =>
    rw [insert]
    split
    case isTrue hk =>
      subst hk
      simp
    case isFalse =>
      rw [List.map_cons, List.map_cons, List.mem_cons, List.mem_cons, ih, or_left_comm]

theorem mem_keys_insertAll {entries start : List (K × V)} {k : K} :
    k ∈ (insertAll start entries).map Prod.fst ↔
      k ∈ start.map Prod.fst ∨ k ∈ entries.map Prod.fst := by
  induction entries generalizing start with
  | nil => simp [insertAll]
  | cons e es ih =>
    rw [insertAll, List.foldl_cons, ← insertAll, ih, mem_keys_insert, List.map_cons, List.mem_cons,
      or_assoc, or_left_comm]

theorem mem_keys_ofList {entries : List (K × V)} {k : K} :
    k ∈ (ofList entries).map Prod.fst ↔ k ∈ entries.map Prod.fst := by
  rw [ofList, mem_keys_insertAll, List.map_nil, List.mem_nil_iff, false_or]

/-- **None of the entries written is lost exactly where no key is repeated.** -/
theorem length_ofList_eq_iff {entries : List (K × V)} :
    (ofList entries).length = entries.length ↔ (entries.map Prod.fst).Nodup := by
  constructor
  · intro hlength
    have hnodup : ((ofList entries).map Prod.fst).Nodup := nodup_insertAll List.nodup_nil
    have hsubset : (ofList entries).map Prod.fst ⊆ entries.map Prod.fst :=
      fun _ hk => mem_keys_ofList.mp hk
    have hperm : ((ofList entries).map Prod.fst).Perm (entries.map Prod.fst) :=
      (List.subperm_of_subset hnodup hsubset).perm_of_length_le (by simp [hlength])
    exact hperm.nodup_iff.mp hnodup
  · intro hnodup
    rw [ofList_of_nodup hnodup]

end Entries

end Ascription
