import Ascription.Proofs.Json
import Ascription.Proofs.Number.Digits
import Ascription.Proofs.Value.Equal
import Ascription.Proofs.Value.Fits
import Ascription.Value.Json

/-!
# Proofs/Value/Json — reading back what was written

    v  ──toJson──▸  document  ──ofJson t──▸  w        w equal to v

A document forgets which of its objects were maps, which of its names were integers and which of its
nulls stood where a list was allowed; the type that guides the reader knows.  It reads back every
value of the type but for the order of entries, which a document sorts by name.
-/

namespace Ascription

/-- **A type of documents**: the scalar types, and what options, lists, maps, structs and
aliases make of them. -/
inductive Ty.Documentary : Ty → Prop
  | string : Documentary .string
  | int : Documentary .int
  | float : Documentary .float
  | bool : Documentary .bool
  | none : Documentary .none
  | option {t} (inner : Documentary t) : Documentary (.option t)
  | list {t} (element : Documentary t) : Documentary (.list t)
  | map {k t} (isKey : k.isKey = true) (value : Documentary t) : Documentary (.map k t)
  | struct {ts} (types : ∀ f ∈ ts, Documentary f.2) : Documentary (.struct ts)
  | aliased {name t} (target : Documentary t) : Documentary (.aliased name t)

namespace Value

/-- **A plain value**: each float in it is finite, each record anonymous, and each map and
record has every key once. -/
inductive Plain : Value → Prop
  | string {s} : Plain (.string s)
  | int {n} : Plain (.int n)
  | float {x} (finite : x.isFinite = true) : Plain (.float x)
  | bool {b} : Plain (.bool b)
  | none : Plain .none
  | list {vs} (items : ∀ v ∈ vs, Plain v) : Plain (.list vs)
  | map {es} (nodup : (es.map Prod.fst).Nodup) (values : ∀ e ∈ es, Plain e.2) : Plain (.map es)
  | record {fs} (nodup : (fs.map Prod.fst).Nodup) (fields : ∀ f ∈ fs, Plain f.2) :
      Plain (.record Option.none fs)
  | callable {i c} : Plain (.callable i c)

mutual

/-- **Each record in the value has exactly the fields of its struct type.** -/
def Exact : Ty → Value → Prop
  | .aliased _ t, v | .option t, v | .some t, v => Exact t v
  | .list t, .list vs => ∀ v ∈ vs, Exact t v
  | .map _ t, .map es => ∀ e ∈ es, Exact t e.2
  | .struct ts, .record _ fs =>
    (∀ name, name ∈ fs.map Prod.fst ↔ name ∈ ts.map Prod.fst) ∧ ExactFields ts fs
  | _, _ => True

/-- The same within the fields of a record. -/
def ExactFields : List (String × Ty) → List (String × Value) → Prop
  | [], _ => True
  | (name, t) :: rest, fs => (∀ v, fs.lookup name = Option.some v → Exact t v) ∧ ExactFields rest fs

end

theorem exactFields_iff {ts : List (String × Ty)} {fs : List (String × Value)} :
    ExactFields ts fs ↔ ∀ f ∈ ts, ∀ v, fs.lookup f.1 = Option.some v → Exact f.2 v := by
  induction ts with
  | nil => simp [ExactFields]
  | cons f ts ih => rw [ExactFields, ih, List.forall_mem_cons]

theorem toJsonEntries_eq_map {es : List (MapKey × Value)} :
    toJsonEntries es = es.map fun e => (e.1.memberName, e.2.toJson) := by
  induction es with
  | nil => rfl
  | cons e es ih => rw [toJsonEntries, ih, List.map_cons]

theorem toJsonFields_eq_map {fs : List (String × Value)} :
    toJsonFields fs = fs.map fun f => (f.1, f.2.toJson) := by
  induction fs with
  | nil => rfl
  | cons f fs ih => rw [toJsonFields, ih, List.map_cons]

/-! ## Equality without regard to order -/

/-- **Entries equal to others in another order**: every key once, as many of them, each with
the value of its key. -/
theorem equal_of_reordered {K : Type} [DecidableEq K] {es sorted read : List (K × Value)}
    (hnodup : (es.map Prod.fst).Nodup) (hperm : sorted.Perm es)
    (h : Entries.Related Equals read sorted) :
    (read.map Prod.fst).Nodup ∧ read.length = es.length ∧ Entries.Answered Equals read es := by
  refine ⟨?_, h.length_eq.trans hperm.length_eq, Entries.answered_of_reordered hnodup hperm h⟩
  rw [h.keys_eq]
  exact (hperm.map Prod.fst).nodup_iff.mpr hnodup

/-! ## Keys -/

/-- **A key reads back from its name** under a type that it fits. -/
theorem keyOfJson_memberName {k : Ty} {key : MapKey} (hk : k.isKey = true)
    (h : Fits k key.toValue) : keyOfJson k key.memberName = .ok key := by
  rw [← fits_canonical] at h
  rw [Ty.isKey] at hk
  rw [keyOfJson]
  split
  case h_1 hint =>
    rw [hint, fits_int] at h
    cases key with
    | int n => simp only [MapKey.memberName, Numeral.readInt64_toString]
    | string => exact absurd h nofun
  case h_2 hint =>
    split at hk
    case h_1 h' => exact absurd h' hint
    case h_2 hstring =>
      rw [hstring, fits_string] at h
      cases key with
      | int => exact absurd h nofun
      | string => rfl
    case h_3 => cases hk

/-- Distinct keys of one type have distinct names. -/
theorem nodup_memberName {k : Ty} {es : List (MapKey × Value)} (hk : k.isKey = true)
    (hfits : ∀ e ∈ es, Fits k e.1.toValue) (h : (es.map Prod.fst).Nodup) :
    ((toJsonEntries es).map Prod.fst).Nodup := by
  rw [toJsonEntries_eq_map, List.map_map]
  rw [List.Nodup, List.pairwise_map] at h ⊢
  refine h.imp_of_mem fun {e e'} he he' hne hname => hne ?_
  have hread := keyOfJson_memberName hk (hfits e he)
  rw [show e.1.memberName = e'.1.memberName from hname,
    keyOfJson_memberName hk (hfits e' he')] at hread
  exact (Except.ok.inj hread).symm

/-! ## Reading back -/

/-- **A value that reads back from its document** under a type. -/
def ReadsBack (t : Ty) (v : Value) : Prop :=
  ∃ w, ofJson (Option.some t) v.toJson = .ok w ∧ w.equal v = true

section

variable {t : Ty} {v : Value}

theorem ofJson_aliased {name : String} {j : Json} :
    ofJson (Option.some (.aliased name t)) j = ofJson (Option.some t) j := by
  cases j <;> rfl

theorem ofJson_option {j : Json} :
    ofJson (Option.some (.option t)) j = ofJson (Option.some t) j := by
  cases j <;> rfl

theorem readsBack_int {n : Int64} : ReadsBack .int (.int n) := by
  refine ⟨.int n, ?_, by simp [equal]⟩
  rw [toJson, ofJson, ofJsonNumber, JsonNumber.toInt64?_ofInt64]
  case x_1 => simp [Ty.unwrapped]
  case x_2 => exact fun _ _ => JsonNumber.ofInt64_ne_float

theorem readsBack_float {x : Binary64} (h : x.isFinite = true) : ReadsBack .float (.float x) := by
  refine ⟨.float x, ?_, ?_⟩
  · rw [toJson, JsonNumber.ofBinary64?, dif_pos h]
    rfl
  · simp [equal, Binary64.equal, Binary64.isNaN_eq_false_of_isFinite h]

theorem ofJsonItems_toJsonItems {vs : List Value} (h : ∀ v ∈ vs, ReadsBack t v) :
    ∃ ws, ofJsonItems (Option.some t) (toJsonItems vs) = .ok ws ∧ equalItems ws vs = true := by
  induction vs with
  | nil => exact ⟨[], rfl, by rw [equalItems]⟩
  | cons v vs ih =>
    obtain ⟨⟨w, hw, hwv⟩, hvs⟩ := List.forall_mem_cons.mp h
    obtain ⟨ws, hws, hwsvs⟩ := ih hvs
    refine ⟨w :: ws, ?_, by rw [equalItems, hwv, hwsvs]; rfl⟩
    rw [toJsonItems, ofJsonItems, hw, hws]
    rfl

theorem ofJsonEntries_toJson {k : Ty} {es : List (MapKey × Value)}
    (hkeys : ∀ e ∈ es, keyOfJson k e.1.memberName = .ok e.1) (h : ∀ e ∈ es, ReadsBack t e.2) :
    ∃ read, ofJsonEntries k t (es.map fun e => (e.1.memberName, e.2.toJson)) = .ok read ∧
      Entries.Related Equals read es := by
  induction es with
  | nil => exact ⟨[], rfl, .nil⟩
  | cons e es ih =>
    obtain ⟨hkey, hkeys⟩ := List.forall_mem_cons.mp hkeys
    obtain ⟨⟨w, hw, hwv⟩, hes⟩ := List.forall_mem_cons.mp h
    obtain ⟨read, hread, hequal⟩ := ih hkeys hes
    refine ⟨(e.1, w) :: read, ?_, .cons hwv hequal⟩
    rw [List.map_cons, ofJsonEntries, hkey, hw, hread]
    rfl

theorem ofJsonMembers_toJson {ts : List (String × Ty)} {fs : List (String × Value)}
    (h : ∀ f ∈ fs, ∃ t, ts.lookup f.1 = Option.some t ∧ ReadsBack t f.2) :
    ∃ read, ofJsonMembers ts (fs.map fun f => (f.1, f.2.toJson)) = .ok read ∧
      Entries.Related Equals read fs := by
  induction fs with
  | nil => exact ⟨[], rfl, .nil⟩
  | cons f fs ih =>
    obtain ⟨⟨t, ht, w, hw, hwv⟩, hfs⟩ := List.forall_mem_cons.mp h
    obtain ⟨read, hread, hequal⟩ := ih hfs
    refine ⟨(f.1, w) :: read, ?_, .cons hwv hequal⟩
    rw [List.map_cons, ofJsonMembers, ht, hw, hread]
    rfl

theorem readsBack_list {vs : List Value} (h : ∀ v ∈ vs, ReadsBack t v) :
    ReadsBack (.list t) (.list vs) := by
  obtain ⟨ws, hws, hequal⟩ := ofJsonItems_toJsonItems h
  refine ⟨.list ws, ?_, by rw [equal, hequal]⟩
  rw [toJson, ofJson]
  exact Except.bind_eq_ok.mpr ⟨ws, hws, rfl⟩

/-- **A map reads back** when its keys fit and its values read back. -/
theorem readsBack_map {k : Ty} {es : List (MapKey × Value)} (hk : k.isKey = true)
    (hfits : ∀ e ∈ es, Fits k e.1.toValue) (hnodup : (es.map Prod.fst).Nodup)
    (h : ∀ e ∈ es, ReadsBack t e.2) : ReadsBack (.map k t) (.map es) := by
  have hnames := nodup_memberName hk hfits hnodup
  rw [toJsonEntries_eq_map] at hnames
  obtain ⟨sorted, hperm, hsorted⟩ := Json.sortMembers_map hnames
  have hmem : ∀ e ∈ sorted, e ∈ es := fun e => hperm.mem_iff.mp
  obtain ⟨read, hread, hrelated⟩ := ofJsonEntries_toJson
    (fun e he => keyOfJson_memberName hk (hfits e (hmem e he))) fun e he => h e (hmem e he)
  obtain ⟨hkeys, hlength, hentries⟩ := equal_of_reordered hnodup hperm hrelated
  refine ⟨.map read, ?_, ?_⟩
  · rw [toJson, toJsonEntries_eq_map, Json.sorted, hsorted, ofJson]
    exact Except.bind_eq_ok.mpr ⟨read, hread, by rw [Entries.ofList_of_nodup hkeys]⟩
  · rw [equal, hlength, entriesIn_iff.mpr hentries]
    simp

/-- **A record reads back** when it has no fields but those of its type, and these read back. -/
theorem readsBack_struct {ts : List (String × Ty)} {fs : List (String × Value)}
    (hnodup : (fs.map Prod.fst).Nodup)
    (h : ∀ f ∈ fs, ∃ t, ts.lookup f.1 = Option.some t ∧ ReadsBack t f.2) :
    ReadsBack (.struct ts) (.record Option.none fs) := by
  have hnames : ((fs.map fun f => (f.1, f.2.toJson)).map Prod.fst).Nodup := by
    rwa [List.map_map]
  obtain ⟨sorted, hperm, hsorted⟩ := Json.sortMembers_map hnames
  obtain ⟨read, hread, hrelated⟩ := ofJsonMembers_toJson fun f hf => h f (hperm.mem_iff.mp hf)
  obtain ⟨hkeys, hlength, hfields⟩ := equal_of_reordered hnodup hperm hrelated
  refine ⟨.record Option.none read, ?_, ?_⟩
  · rw [toJson, toJsonFields_eq_map, Json.sorted, hsorted, ofJson]
    exact Except.bind_eq_ok.mpr
      ⟨read, hread, by rw [anonymous, Entries.ofList_of_nodup hkeys]⟩
  · rw [equal, hlength, fieldsIn_iff.mpr hfields]
    simp

end

/-- **A plain value of a type of documents reads back from its document**, whatever aliases and
options the type goes through: what is read is equal to what was written. -/
theorem ofJson_toJson {t : Ty} {v : Value} (ht : t.Documentary) (hcheck : v.check t = .ok ())
    (hplain : v.Plain) (hexact : Exact t v) :
    ∃ w, ofJson (Option.some t) v.toJson = .ok w ∧ w.equal v = true := by
  change ReadsBack t v
  replace hcheck : Fits t v := hcheck
  induction ht generalizing v with
  | string =>
    obtain ⟨s, rfl⟩ := fits_string.mp hcheck
    exact ⟨.string s, rfl, by simp [equal]⟩
  | int =>
    obtain ⟨n, rfl⟩ := fits_int.mp hcheck
    exact readsBack_int
  | float =>
    obtain ⟨x, rfl⟩ := fits_float.mp hcheck
    cases hplain with
    | float finite => exact readsBack_float finite
  | bool =>
    obtain ⟨b, rfl⟩ := fits_bool.mp hcheck
    exact ⟨.bool b, rfl, by simp [equal]⟩
  | none =>
    obtain rfl := fits_none.mp hcheck
    exact ⟨.none, rfl, by rw [equal]⟩
  | aliased _ ih =>
    rw [ReadsBack, ofJson_aliased]
    exact ih hplain hexact (fits_aliased.mp hcheck)
  | option _ ih =>
    rw [ReadsBack, ofJson_option]
    obtain rfl | hfits := fits_option.mp hcheck
    · exact ⟨.none, rfl, by rw [equal]⟩
    · exact ih hplain hexact hfits
  | list _ ih =>
    obtain ⟨vs, rfl, hfits⟩ := fits_list.mp hcheck
    cases hplain with
    | list items =>
      exact readsBack_list fun v hv => ih (items v hv) (hexact v hv) (hfits v hv)
  | map isKey _ ih =>
    obtain ⟨es, rfl, hfits⟩ := fits_map.mp hcheck
    cases hplain with
    | map nodup values =>
      exact readsBack_map isKey (fun e he => (hfits e he).1) nodup
        fun e he => ih (values e he) (hexact e he) (hfits e he).2
  | struct _ ih =>
    obtain ⟨kind, fs, rfl, hfits⟩ := fits_struct.mp hcheck
    obtain ⟨hnames, hfields⟩ := hexact
    cases hplain with
    | record nodup fields =>
      refine readsBack_struct nodup fun f hf => ?_
      have hlookup : fs.lookup f.1 = Option.some f.2 := Entries.lookup_of_mem nodup hf
      obtain ⟨t, ht⟩ := Entries.exists_lookup ((hnames f.1).mp (List.mem_map_of_mem hf))
      have hmem : (f.1, t) ∈ _ := Entries.mem_of_lookup ht
      obtain ⟨v, hv, hfit⟩ := hfits _ hmem
      cases hlookup.symm.trans hv
      exact ⟨t, ht, ih _ hmem (fields f hf) (exactFields_iff.mp hfields _ hmem _ hlookup) hfit⟩

/-- A page of rows: keys that sort as text, an absent row, a negative zero and a nested map. -/
theorem ofJson_toJson_page :
    let row : Ty := .struct [("cost", .float), ("name", .aliased "label" .string)]
    let page : Ty := .aliased "page" (.struct
      [("rows", .list (.map .int (.option row))), ("next", .option (.map .string .int))])
    let v : Value := .record Option.none
      [("rows", .list [.map [(.int 9, .record Option.none
          [("name", .string "a"), ("cost", .float (.zero true))]), (.int 10, .none)]]),
        ("next", .map [(.string "b", .int (-3)), (.string "a", .int 4)])]
    v.check page = .ok () ∧
      ∃ w, ofJson (Option.some page) v.toJson = .ok w ∧ w.equal v = true := by
  intro row page v
  have hrow : row.Documentary := .struct (by
    simp only [List.forall_mem_cons]
    exact ⟨.float, .aliased .string, List.forall_mem_nil _⟩)
  have hpage : page.Documentary := .aliased (.struct (by
    simp only [List.forall_mem_cons]
    exact ⟨.list (.map rfl (.option hrow)), .option (.map rfl .int), List.forall_mem_nil _⟩))
  have hplain : v.Plain := by
    refine .record (by decide) ?_
    simp only [List.forall_mem_cons]
    refine ⟨.list ?rows, .map (by decide) ?next, List.forall_mem_nil _⟩
    case next =>
      simp only [List.forall_mem_cons]
      exact ⟨.int, .int, List.forall_mem_nil _⟩
    case rows =>
      simp only [List.forall_mem_cons]
      refine ⟨.map (by decide) ?_, List.forall_mem_nil _⟩
      simp only [List.forall_mem_cons]
      refine ⟨.record (by decide) ?_, .none, List.forall_mem_nil _⟩
      simp only [List.forall_mem_cons]
      exact ⟨.string, .float rfl, List.forall_mem_nil _⟩
  have hexact : Exact page v := by
    simp [page, row, v, Exact, ExactFields, List.lookup_cons, or_comm]
  exact ⟨rfl, ofJson_toJson hpage rfl hplain hexact⟩

end Value

end Ascription
