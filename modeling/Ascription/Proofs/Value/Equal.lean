import Ascription.Proofs.Entries
import Ascription.Proofs.Value.Related
import Mathlib.Data.List.Nodup
import Mathlib.Data.List.Perm.Subperm

/-!
# Proofs/Value/Equal — equality of values is a partial equivalence

    u = v ⟹ v = u        u = v, v = w ⟹ u = w        u = u ⟺ no NaN in u

Maps and records are compared from one side: there are as many entries, and each on the left has
an equal one on the right.  Where each key is there once that is a comparison of both sides in
any order, since as many distinct keys as there are cover them all.  Only a NaN differs from
itself, and what holds it does.
-/

namespace Ascription

/-! ## Floats -/

namespace Binary64

theorem equal_iff {x y : Binary64} : x.equal y = true ↔
    (x.isNaN = false ∧ y.isNaN = false) ∧ x.code = y.code ∧
      (x.negative = y.negative ∨ x.isZero = true) := by
  simp [equal, and_assoc]

/-- Numbers with one code are zeros together. -/
theorem isZero_congr {x y : Binary64} (h : x.code = y.code) : x.isZero = y.isZero := by
  rw [isZero, isZero, h]

theorem equal_symm {x y : Binary64} (h : x.equal y = true) : y.equal x = true := by
  obtain ⟨⟨hx, hy⟩, hcode, hsign⟩ := equal_iff.mp h
  refine equal_iff.mpr ⟨⟨hy, hx⟩, hcode.symm, hsign.imp Eq.symm fun hzero => ?_⟩
  exact (isZero_congr hcode).symm.trans hzero

theorem equal_trans {x y z : Binary64} (h : x.equal y = true) (h' : y.equal z = true) :
    x.equal z = true := by
  obtain ⟨⟨hx, -⟩, hcode, hsign⟩ := equal_iff.mp h
  obtain ⟨⟨-, hz⟩, hcode', hsign'⟩ := equal_iff.mp h'
  refine equal_iff.mpr ⟨⟨hx, hz⟩, hcode.trans hcode', ?_⟩
  obtain hsign | hzero := hsign
  · exact hsign'.imp hsign.trans fun hzero => (isZero_congr hcode).trans hzero
  · exact .inr hzero

theorem equal_self_iff {x : Binary64} : x.equal x = true ↔ x.isNaN = false := by
  simp [equal_iff]

end Binary64

/-! ## Entries in any order -/

namespace Entries

variable {K V W : Type} {P : V → W → Prop} {es : List (K × V)} {fs : List (K × W)}

theorem Related.swap (h : Related P es fs) : Related (flip P) fs es := by
  induction h with
  | nil => exact .nil
  | cons value _ ih => exact .cons value ih

variable [DecidableEq K]

/-- **Entries answered by others**: under each key stands a related value. -/
def Answered (P : V → W → Prop) (es : List (K × V)) (fs : List (K × W)) : Prop :=
  ∀ e ∈ es, ∃ w, fs.lookup e.1 = some w ∧ P e.2 w

theorem answered_cons {e : K × V} :
    Answered P (e :: es) fs ↔ (∃ w, fs.lookup e.1 = some w ∧ P e.2 w) ∧ Answered P es fs :=
  List.forall_mem_cons

/-- The entries that answer, in the order of those they answer. -/
theorem Answered.related (h : Answered P es fs) : ∃ fs', fs' ⊆ fs ∧ Related P es fs' := by
  induction es with
  | nil => exact ⟨[], List.nil_subset _, .nil⟩
  | cons e es ih =>
    obtain ⟨⟨w, hw, hvalue⟩, hrest⟩ := answered_cons.mp h
    obtain ⟨fs', hsub, hrelated⟩ := ih hrest
    exact ⟨(e.1, w) :: fs', List.cons_subset.mpr ⟨mem_of_lookup hw, hsub⟩, .cons hvalue hrelated⟩

/-- **Distinct keys are answered by all of as many entries**, in some order. -/
theorem Answered.reordered (hnodup : (es.map Prod.fst).Nodup) (hlength : es.length = fs.length)
    (h : Answered P es fs) : ∃ fs', fs'.Perm fs ∧ Related P es fs' := by
  obtain ⟨fs', hsub, hrelated⟩ := h.related
  have hnodup' : fs'.Nodup := List.Nodup.of_map Prod.fst (hrelated.keys_eq ▸ hnodup)
  have hle : fs.length ≤ fs'.length := Nat.le_of_eq (hlength.symm.trans hrelated.length_eq)
  exact ⟨fs', (List.subperm_of_subset hnodup' hsub).perm_of_length_le hle, hrelated⟩

/-- Related entries answer in whatever order they stand. -/
theorem answered_of_reordered {fs' : List (K × W)} (hnodup : (fs.map Prod.fst).Nodup)
    (hperm : fs'.Perm fs) (h : Related P es fs') : Answered P es fs := by
  replace hperm : ∀ f ∈ fs', f ∈ fs := fun f => hperm.mem_iff.mp
  induction h with
  | nil => exact List.forall_mem_nil _
  | cons value _ ih =>
    obtain ⟨hmem, hrest⟩ := List.forall_mem_cons.mp hperm
    exact answered_cons.mpr ⟨⟨_, lookup_of_mem hnodup hmem, value⟩, ih hrest⟩

/-- Among distinct keys, as many entries answer just when some reordering of them stands key by
key. -/
theorem answered_iff_reordered (hnodup : (es.map Prod.fst).Nodup)
    (hnodup' : (fs.map Prod.fst).Nodup) :
    es.length = fs.length ∧ Answered P es fs ↔ ∃ fs', fs'.Perm fs ∧ Related P es fs' := by
  constructor
  · rintro ⟨hlength, h⟩
    exact h.reordered hnodup hlength
  · rintro ⟨fs', hperm, h⟩
    exact ⟨h.length_eq.trans hperm.length_eq, answered_of_reordered hnodup' hperm h⟩

/-- **Answering is mutual** between as many entries with distinct keys. -/
theorem Answered.swap (hnodup : (es.map Prod.fst).Nodup) (hlength : es.length = fs.length)
    (h : Answered P es fs) : Answered (flip P) fs es := by
  obtain ⟨fs', hperm, hrelated⟩ := h.reordered hnodup hlength
  have hanswered : Answered (flip P) fs' es :=
    answered_of_reordered hnodup (.refl es) hrelated.swap
  exact fun f hf => hanswered f (hperm.mem_iff.mpr hf)

theorem Answered.trans {X : Type} {Q : W → X → Prop} {gs : List (K × X)} (h : Answered P es fs)
    (h' : Answered Q fs gs) : Answered (fun v x => ∃ w, P v w ∧ Q w x) es gs := by
  intro e he
  obtain ⟨w, hw, hP⟩ := h e he
  obtain ⟨x, hx, hQ⟩ := h' _ (mem_of_lookup hw)
  exact ⟨x, hx, w, hP, hQ⟩

theorem Answered.imp {Q : V → W → Prop} (h : Answered P es fs)
    (hPQ : ∀ e ∈ es, ∀ w, P e.2 w → Q e.2 w) : Answered Q es fs := fun e he =>
  (h e he).imp fun w hw => ⟨hw.1, hPQ e he w hw.2⟩

/-- Entries with distinct keys answer themselves. -/
theorem answered_self {P : V → V → Prop} (hnodup : (es.map Prod.fst).Nodup) :
    Answered P es es ↔ ∀ e ∈ es, P e.2 e.2 := by
  refine forall₂_congr fun e he => ?_
  rw [lookup_of_mem hnodup he]
  exact ⟨fun ⟨_, hw, hP⟩ => Option.some.inj hw ▸ hP, fun hP => ⟨_, rfl, hP⟩⟩

end Entries

namespace Value

open Entries

variable {u v w : Value}

/-! ## Equality part by part -/

/-- **The values that are equal**, as a relation. -/
abbrev Equals (v w : Value) : Prop := v.equal w = true

theorem equalItems_iff {vs ws : List Value} :
    equalItems vs ws = true ↔ List.Forall₂ Equals vs ws := by
  induction vs generalizing ws with
  | nil => cases ws <;> simp [equalItems]
  | cons v vs ih => cases ws <;> simp [equalItems, ih]

theorem entriesIn_iff {es fs : List (MapKey × Value)} :
    entriesIn es fs = true ↔ Answered Equals es fs := by
  induction es with
  | nil => simp [entriesIn, Answered]
  | cons e es ih =>
    obtain ⟨k, v⟩ := e
    rw [entriesIn, Bool.and_eq_true, ih, answered_cons]
    cases fs.lookup k <;> simp

theorem fieldsIn_iff {es fs : List (String × Value)} :
    fieldsIn es fs = true ↔ Answered Equals es fs := by
  induction es with
  | nil => simp [fieldsIn, Answered]
  | cons e es ih =>
    obtain ⟨name, v⟩ := e
    rw [fieldsIn, Bool.and_eq_true, ih, answered_cons]
    cases fs.lookup name <;> simp

theorem equal_string {s : String} : (string s).equal v = true ↔ v = string s := by
  cases v <;> simp [equal, @eq_comm _ s]

theorem equal_int {n : Int64} : (int n).equal v = true ↔ v = int n := by
  cases v <;> simp [equal, @eq_comm _ n]

theorem equal_bool {b : Bool} : (bool b).equal v = true ↔ v = bool b := by
  cases v <;> simp [equal, @eq_comm _ b]

theorem equal_none : none.equal v = true ↔ v = none := by
  cases v <;> simp [equal]

theorem equal_float {x : Binary64} :
    (float x).equal v = true ↔ ∃ y, v = float y ∧ x.equal y = true := by
  cases v <;> simp [equal]

theorem equal_callable {i : Nat} {c : Code} :
    (callable i c).equal v = true ↔ ∃ d, v = callable i d := by
  cases v <;> simp [equal, @eq_comm _ i]

theorem equal_list {vs : List Value} : (list vs).equal v = true ↔
    ∃ ws, v = list ws ∧ List.Forall₂ Equals vs ws := by
  cases v <;> simp [equal, equalItems_iff]

theorem equal_map {es : List (MapKey × Value)} : (map es).equal v = true ↔
    ∃ fs, v = map fs ∧ es.length = fs.length ∧ Answered Equals es fs := by
  cases v <;> simp [equal, entriesIn_iff]

theorem equal_record {kind : Option String} {es : List (String × Value)} :
    (record kind es).equal v = true ↔ ∃ fs, v = record kind fs ∧ es.length = fs.length ∧
      Answered Equals es fs := by
  cases v <;> simp [equal, fieldsIn_iff, @eq_comm _ kind, and_assoc]

/-! ## A partial equivalence -/

/-- **A value with every key once**, in each map and record in it.  Dictionaries have no others; a
list of entries might, and one with a key twice need not equal itself. -/
inductive Keyed : Value → Prop
  | string {s} : Keyed (.string s)
  | int {n} : Keyed (.int n)
  | float {x} : Keyed (.float x)
  | bool {b} : Keyed (.bool b)
  | none : Keyed .none
  | list {vs} (items : ∀ v ∈ vs, Keyed v) : Keyed (.list vs)
  | map {es} (nodup : (es.map Prod.fst).Nodup) (values : ∀ e ∈ es, Keyed e.2) : Keyed (.map es)
  | record {kind fs} (nodup : (fs.map Prod.fst).Nodup) (fields : ∀ f ∈ fs, Keyed f.2) :
      Keyed (.record kind fs)
  | callable {i c} : Keyed (.callable i c)

/-- **A NaN lies in the value**, at any depth. -/
inductive HasNaN : Value → Prop
  | float {x} (isNaN : x.isNaN = true) : HasNaN (.float x)
  | list {vs v} (mem : v ∈ vs) (item : HasNaN v) : HasNaN (.list vs)
  | map {es e} (mem : e ∈ es) (value : HasNaN e.2) : HasNaN (.map es)
  | record {kind fs f} (mem : f ∈ fs) (field : HasNaN f.2) : HasNaN (.record kind fs)

theorem keyed_map {es : List (MapKey × Value)} :
    (map es).Keyed ↔ (es.map Prod.fst).Nodup ∧ ∀ e ∈ es, e.2.Keyed :=
  ⟨fun | .map nodup values => ⟨nodup, values⟩, fun ⟨nodup, values⟩ => .map nodup values⟩

theorem keyed_record {kind : Option String} {fs : List (String × Value)} :
    (record kind fs).Keyed ↔ (fs.map Prod.fst).Nodup ∧ ∀ f ∈ fs, f.2.Keyed :=
  ⟨fun | .record nodup fields => ⟨nodup, fields⟩, fun ⟨nodup, fields⟩ => .record nodup fields⟩

theorem forall₂_equal_symm {vs ws : List Value}
    (ih : ∀ v ∈ vs, ∀ w, v.equal w = true → w.equal v = true)
    (h : List.Forall₂ Equals vs ws) :
    List.Forall₂ Equals ws vs := by
  induction h with
  | nil => exact .nil
  | cons hvw _ ih' =>
    obtain ⟨hv, ih⟩ := List.forall_mem_cons.mp ih
    exact .cons (hv _ hvw) (ih' ih)

theorem forall₂_equal_trans {vs ws xs : List Value}
    (ih : ∀ v ∈ vs, ∀ w x, v.equal w = true → w.equal x = true → v.equal x = true)
    (h : List.Forall₂ Equals vs ws)
    (h' : List.Forall₂ Equals ws xs) :
    List.Forall₂ Equals vs xs := by
  induction h generalizing xs with
  | nil => exact h'
  | cons hvw _ ih' =>
    obtain ⟨x, xs, hwx, hrest, rfl⟩ := List.forall₂_cons_left_iff.mp h'
    obtain ⟨hv, ih⟩ := List.forall_mem_cons.mp ih
    exact .cons (hv _ _ hvw hwx) (ih' ih hrest)

/-- **Equality is symmetric** on the left of a value with distinct keys: as many distinct keys as
there are on the right cover them all. -/
theorem equal_symm (hu : u.Keyed) (h : u.equal v = true) : v.equal u = true := by
  induction hu generalizing v with
  | string => exact equal_string.mp h ▸ h
  | int => exact equal_int.mp h ▸ h
  | bool => exact equal_bool.mp h ▸ h
  | none => exact equal_none.mp h ▸ h
  | float =>
    obtain ⟨y, rfl, hxy⟩ := equal_float.mp h
    exact equal_float.mpr ⟨_, rfl, Binary64.equal_symm hxy⟩
  | callable =>
    obtain ⟨d, rfl⟩ := equal_callable.mp h
    exact equal_callable.mpr ⟨_, rfl⟩
  | list _ ih =>
    obtain ⟨ws, rfl, hitems⟩ := equal_list.mp h
    exact equal_list.mpr ⟨_, rfl, forall₂_equal_symm (fun v hv _ => ih v hv) hitems⟩
  | map nodup _ ih =>
    obtain ⟨fs, rfl, hlength, hentries⟩ := equal_map.mp h
    exact equal_map.mpr
      ⟨_, rfl, hlength.symm, (hentries.imp fun e he w => ih e he).swap nodup hlength⟩
  | record nodup _ ih =>
    obtain ⟨fs, rfl, hlength, hfields⟩ := equal_record.mp h
    exact equal_record.mpr
      ⟨_, rfl, hlength.symm, (hfields.imp fun e he w => ih e he).swap nodup hlength⟩

theorem equal_trans (hu : u.Keyed) (h : u.equal v = true) (h' : v.equal w = true) :
    u.equal w = true := by
  induction hu generalizing v w with
  | string => exact equal_string.mp h ▸ h'
  | int => exact equal_int.mp h ▸ h'
  | bool => exact equal_bool.mp h ▸ h'
  | none => exact equal_none.mp h ▸ h'
  | float =>
    obtain ⟨y, rfl, hxy⟩ := equal_float.mp h
    obtain ⟨z, rfl, hyz⟩ := equal_float.mp h'
    exact equal_float.mpr ⟨z, rfl, Binary64.equal_trans hxy hyz⟩
  | callable =>
    obtain ⟨c, rfl⟩ := equal_callable.mp h
    obtain ⟨d, rfl⟩ := equal_callable.mp h'
    exact equal_callable.mpr ⟨d, rfl⟩
  | list _ ih =>
    obtain ⟨ws, rfl, hitems⟩ := equal_list.mp h
    obtain ⟨xs, rfl, hitems'⟩ := equal_list.mp h'
    exact equal_list.mpr ⟨xs, rfl, forall₂_equal_trans (fun v hv _ _ => ih v hv) hitems hitems'⟩
  | map _ _ ih =>
    obtain ⟨fs, rfl, hlength, hentries⟩ := equal_map.mp h
    obtain ⟨gs, rfl, hlength', hentries'⟩ := equal_map.mp h'
    exact equal_map.mpr ⟨gs, rfl, hlength.trans hlength',
      (hentries.trans hentries').imp fun e he _ ⟨_, hv, hw⟩ => ih e he hv hw⟩
  | record _ _ ih =>
    obtain ⟨fs, rfl, hlength, hfields⟩ := equal_record.mp h
    obtain ⟨gs, rfl, hlength', hfields'⟩ := equal_record.mp h'
    exact equal_record.mpr ⟨gs, rfl, hlength.trans hlength',
      (hfields.trans hfields').imp fun e he _ ⟨_, hv, hw⟩ => ih e he hv hw⟩

theorem hasNaN_float {x : Binary64} : (float x).HasNaN ↔ x.isNaN = true :=
  ⟨fun | .float h => h, .float⟩

theorem hasNaN_list {vs : List Value} : (list vs).HasNaN ↔ ∃ v ∈ vs, v.HasNaN :=
  ⟨fun | .list hv h => ⟨_, hv, h⟩, fun ⟨_, hv, h⟩ => .list hv h⟩

theorem hasNaN_map {es : List (MapKey × Value)} : (map es).HasNaN ↔ ∃ e ∈ es, e.2.HasNaN :=
  ⟨fun | .map he h => ⟨_, he, h⟩, fun ⟨_, he, h⟩ => .map he h⟩

theorem hasNaN_record {kind : Option String} {fs : List (String × Value)} :
    (record kind fs).HasNaN ↔ ∃ f ∈ fs, f.2.HasNaN :=
  ⟨fun | .record hf h => ⟨_, hf, h⟩, fun ⟨_, hf, h⟩ => .record hf h⟩

/-- **A value equals itself unless it holds a NaN.** -/
theorem equal_self_iff (hu : u.Keyed) : u.equal u = true ↔ ¬u.HasNaN := by
  induction hu with
  | string => exact iff_of_true (equal_string.mpr rfl) nofun
  | int => exact iff_of_true (equal_int.mpr rfl) nofun
  | bool => exact iff_of_true (equal_bool.mpr rfl) nofun
  | none => exact iff_of_true (equal_none.mpr rfl) nofun
  | callable => exact iff_of_true (equal_callable.mpr ⟨_, rfl⟩) nofun
  | float => rw [equal, Binary64.equal_self_iff, hasNaN_float, Bool.not_eq_true]
  | list _ ih =>
    rw [equal, equalItems_iff, List.forall₂_same, hasNaN_list]
    simpa using forall₂_congr ih
  | map nodup _ ih =>
    rw [equal, beq_self_eq_true, Bool.true_and, entriesIn_iff, answered_self nodup, hasNaN_map]
    simpa using forall₂_congr ih
  | record nodup _ ih =>
    rw [equal, beq_self_eq_true, beq_self_eq_true, Bool.true_and, Bool.true_and, fieldsIn_iff,
      answered_self nodup, hasNaN_record]
    simpa using forall₂_congr ih

/-- **Equality is a partial equivalence** of the values with distinct keys: symmetric, transitive,
and reflexive but for NaNs.  Maps are equal when one's entries stand key by key against a reordering
of the other's, records when their kinds agree as well, and callables when their identities do. -/
theorem equal_partial_equivalence (hu : u.Keyed) (hv : v.Keyed) :
    u.equal v = v.equal u ∧
      (u.equal v = true → v.equal w = true → u.equal w = true) ∧
      (u.equal u = true ↔ ¬u.HasNaN) ∧
      (∀ es fs, u = map es → v = map fs →
        (u.equal v = true ↔ ∃ fs', fs'.Perm fs ∧ Entries.Related Equals es fs')) ∧
      (∀ kind kind' es fs, u = record kind es → v = record kind' fs →
        (u.equal v = true ↔
          kind = kind' ∧ ∃ fs', fs'.Perm fs ∧ Entries.Related Equals es fs')) ∧
      ∀ i c j d, u = callable i c → v = callable j d → (u.equal v = true ↔ i = j) := by
  refine ⟨?symmetric, equal_trans hu, equal_self_iff hu, ?maps, ?records, ?callables⟩
  case symmetric => exact Bool.eq_iff_iff.mpr ⟨equal_symm hu, equal_symm hv⟩
  case maps =>
    rintro es fs rfl rfl
    rw [← answered_iff_reordered (keyed_map.mp hu).1 (keyed_map.mp hv).1, equal, Bool.and_eq_true,
      beq_iff_eq, entriesIn_iff]
  case records =>
    rintro kind kind' es fs rfl rfl
    rw [← answered_iff_reordered (keyed_record.mp hu).1 (keyed_record.mp hv).1, equal,
      Bool.and_eq_true, Bool.and_eq_true, beq_iff_eq, beq_iff_eq, fieldsIn_iff, and_assoc]
  case callables =>
    rintro i c j d rfl rfl
    rw [equal, beq_iff_eq]

/-- Two rows with their fields in another order, zeros of either sign and a callable with two codes:
the first equals the second, so the second equals it, so it equals itself and no NaN lies in it. -/
theorem equal_partial_equivalence_rows :
    let cells := [(MapKey.int 1, none), (.string "1", list [bool true])]
    let row := record (some "Row")
      [("cost", float (.zero true)), ("run", callable 3 (.host "run")), ("cells", map cells)]
    let row' := record (some "Row")
      [("cells", map cells.reverse), ("cost", float (.zero false)),
        ("run", callable 3 (.builtin .take))]
    row.equal row' = true ∧ row'.equal row = true ∧ row.equal row = true ∧ ¬row.HasNaN := by
  intro cells row row'
  have hlist : (list [bool true]).Keyed := .list (by simp [Keyed.bool])
  have hrow : row.Keyed := by
    simp [row, cells, keyed_record, keyed_map, Keyed.float, Keyed.callable, Keyed.none, hlist]
  have hrow' : row'.Keyed := by
    simp [row', cells, keyed_record, keyed_map, Keyed.float, Keyed.callable, Keyed.none, hlist]
  obtain ⟨hsymm, htrans, hself, -⟩ := equal_partial_equivalence (w := row) hrow hrow'
  have hequal : row.equal row' = true := by decide +kernel
  have hback : row'.equal row = true := hsymm ▸ hequal
  exact ⟨hequal, hback, htrans hequal hback, hself.mp (htrans hequal hback)⟩

end Value

end Ascription
