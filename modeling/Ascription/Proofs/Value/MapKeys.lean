import Ascription.Proofs.Entries
import Ascription.Proofs.Except
import Ascription.Proofs.Number.Integer
import Ascription.Value.Json
import Mathlib.Data.List.Forall2
import Mathlib.Data.List.Nodup

/-!
# Proofs/Value/MapKeys — objects read as maps from integers

    "+7": a,  "-3": b,  "7": c   ──ofJson──▸   7 ↦ c,  -3 ↦ b

The members of an object are told apart by their names, the entries of a map by the integers that
the names denote.  Two names may denote one integer; of their members the map keeps the last.
-/

namespace Ascription

namespace Value

variable {t k v : Ty} {members : List (String × Json)} {es read : List (MapKey × Value)}

/-- **The name of a member denotes an integer** of 64 bits. -/
def Names (m : String × Json) (n : Int64) : Prop := Numeral.Denotes m.1.toList n.toInt

/-- What a document is read as stands under an integer. -/
def FoundUnder (v : Ty) (es : List (MapKey × Value)) (n : Int64) (j : Json) : Prop :=
  ∃ value, ofJson (Option.some v) j = .ok value ∧ es.lookup (.int n) = Option.some value

/-- **A map that has lost no member of an object**: it has an entry for each, and what a member is
read as stands under the integer that its name denotes. -/
structure Lossless (v : Ty) (members : List (String × Json)) (es : List (MapKey × Value)) :
    Prop where
  length_eq : es.length = members.length
  found : ∀ m ∈ members, ∀ n, Names m n → FoundUnder v es n m.2

/-! ## Names -/

theorem keyOfJson_int (hint : k.canonical = .int) {m : String × Json} {key : MapKey} :
    keyOfJson k m.1 = .ok key ↔ ∃ n, key = .int n ∧ Names m n := by
  rw [keyOfJson, hint]
  simp only [Names, ← Numeral.readInt64_eq_some]
  cases Numeral.readInt64 m.1.toList with
  | none => simp
  | some n => simp [eq_comm]

theorem keyOfJson_of_names (hint : k.canonical = .int) {m : String × Json} {n : Int64}
    (h : Names m n) : keyOfJson k m.1 = .ok (.int n) := (keyOfJson_int hint).mpr ⟨n, rfl, h⟩

/-! ## Members -/

/-- **The entry that a member is read as**: the key of its name, and the value of its document. -/
def ReadAs (k v : Ty) (m : String × Json) (e : MapKey × Value) : Prop :=
  keyOfJson k m.1 = .ok e.1 ∧ ofJson (Option.some v) m.2 = .ok e.2

/-- **Members are read one by one.** -/
theorem ofJsonEntries_eq_ok :
    ofJsonEntries k v members = .ok read ↔ List.Forall₂ (ReadAs k v) members read := by
  induction members generalizing read with
  | nil =>
    rw [ofJsonEntries, List.forall₂_nil_left_iff, Except.ok.injEq, eq_comm]
  | cons m members ih =>
    obtain ⟨name, j⟩ := m
    rw [ofJsonEntries, List.forall₂_cons_left_iff]
    simp only [Except.bind_eq_ok, ih, Except.ok.injEq]
    constructor
    · rintro ⟨key, hkey, value, hvalue, es, hes, rfl⟩
      exact ⟨(key, value), es, ⟨hkey, hvalue⟩, hes, rfl⟩
    · rintro ⟨⟨key, value⟩, es, ⟨hkey, hvalue⟩, hes, rfl⟩
      exact ⟨key, hkey, value, hvalue, es, hes, rfl⟩

theorem exists_ofJsonEntries : (∃ read, ofJsonEntries k v members = .ok read) ↔
    ∀ m ∈ members, (∃ key, keyOfJson k m.1 = .ok key) ∧
      ∃ w, ofJson (Option.some v) m.2 = .ok w := by
  induction members with
  | nil => simp [ofJsonEntries]
  | cons m members ih =>
    simp only [ofJsonEntries_eq_ok, List.forall₂_cons_left_iff] at ih ⊢
    rw [List.forall_mem_cons, ← ih]
    constructor
    · rintro ⟨-, e, es, ⟨hkey, hvalue⟩, hes, -⟩
      exact ⟨⟨⟨e.1, hkey⟩, e.2, hvalue⟩, es, hes⟩
    · rintro ⟨⟨⟨key, hkey⟩, value, hvalue⟩, es, hes⟩
      exact ⟨(key, value) :: es, (key, value), es, ⟨hkey, hvalue⟩, hes, rfl⟩

/-- The keys that members are read as. -/
theorem keys_ofJsonEntries (h : List.Forall₂ (ReadAs k v) members read) :
    members.map (fun m => keyOfJson k m.1) = (read.map Prod.fst).map .ok := by
  rw [← List.forall₂_eq_eq_eq, List.map_map, List.forall₂_map_left_iff, List.forall₂_map_right_iff]
  exact h.imp fun _ _ h => h.1

/-- The entry that a member among others is read as. -/
theorem split_ofJsonEntries {before after : List (String × Json)} {m : String × Json}
    (h : List.Forall₂ (ReadAs k v) (before ++ m :: after) read) :
    ∃ es e es', read = es ++ e :: es' ∧ ReadAs k v m e ∧ List.Forall₂ (ReadAs k v) after es' := by
  induction before generalizing read with
  | nil =>
    obtain ⟨e, es', he, hes', rfl⟩ := List.forall₂_cons_left_iff.mp h
    exact ⟨[], e, es', rfl, he, hes'⟩
  | cons m' before ih =>
    obtain ⟨e', read, -, hread, rfl⟩ := List.forall₂_cons_left_iff.mp h
    obtain ⟨es, e, es', rfl, he, hes'⟩ := ih hread
    exact ⟨e' :: es, e, es', rfl, he, hes'⟩

theorem mem_keys_ofJsonEntries (h : List.Forall₂ (ReadAs k v) members read) {key : MapKey} :
    key ∈ read.map Prod.fst ↔ ∃ m ∈ members, keyOfJson k m.1 = .ok key := by
  have hmem : (.ok key : Except JsonValueError MapKey) ∈ (read.map Prod.fst).map .ok ↔
      key ∈ read.map Prod.fst := List.mem_map_of_injective fun _ _ => Except.ok.inj
  rw [← hmem, ← keys_ofJsonEntries h, List.mem_map]

/-! ## Maps -/

theorem ofJson_map (hmap : t.unwrapped = .map k v) {w : Value} :
    ofJson (Option.some t) (.object members) = .ok w ↔
      ∃ read, List.Forall₂ (ReadAs k v) members read ∧ w = .map (Entries.ofList read) := by
  rw [ofJson, Option.map_some, hmap]
  simp only [Except.bind_eq_ok, Except.ok.injEq, ofJsonEntries_eq_ok, @eq_comm _ w]

/-- **The last member counts** of those that are read as one key. -/
theorem lookup_last {before after : List (String × Json)} {m : String × Json} {key : MapKey}
    (h : List.Forall₂ (ReadAs k v) (before ++ m :: after) read) (hkey : keyOfJson k m.1 = .ok key)
    (hlast : ∀ m' ∈ after, keyOfJson k m'.1 ≠ .ok key) :
    ∃ value, ofJson (Option.some v) m.2 = .ok value ∧
      (Entries.ofList read).lookup key = Option.some value := by
  obtain ⟨es, ⟨key', value⟩, es', rfl, ⟨hkey', hvalue⟩, hes'⟩ := split_ofJsonEntries h
  rw [hkey] at hkey'
  cases hkey'
  refine ⟨value, hvalue, Entries.lookup_ofList_append fun hmem => ?_⟩
  obtain ⟨m', hm', hkey'⟩ := (mem_keys_ofJsonEntries hes').mp hmem
  exact hlast m' hm' hkey'

/-- **A map has an entry for every member** exactly where no two are read as one key. -/
theorem length_ofJsonEntries (h : List.Forall₂ (ReadAs k v) members read) :
    (Entries.ofList read).length = members.length ↔
      members.Pairwise fun m m' => keyOfJson k m.1 ≠ keyOfJson k m'.1 := by
  have hinjective : Function.Injective (Except.ok : MapKey → Except JsonValueError MapKey) :=
    fun _ _ => Except.ok.inj
  rw [h.length_eq, Entries.length_ofList_eq_iff, ← List.nodup_map_iff hinjective,
    ← keys_ofJsonEntries h, List.Nodup, List.pairwise_map]

theorem keyOfJson_string (h : k.canonical ≠ .int) {name : String} :
    keyOfJson k name = .ok (.string name) := by
  rw [keyOfJson]
  split
  case h_1 hint => exact absurd hint h
  case h_2 => rfl

/-- **Under other keys than integers no member is lost**, for distinct names stay distinct. -/
theorem length_of_string_keys (hstring : k.canonical ≠ .int) (hnodup : (members.map Prod.fst).Nodup)
    (h : List.Forall₂ (ReadAs k v) members read) :
    (Entries.ofList read).length = members.length := by
  rw [length_ofJsonEntries h]
  refine (List.pairwise_map.mp hnodup).imp fun {m m'} hne heq => hne ?_
  rw [keyOfJson_string hstring, keyOfJson_string hstring] at heq
  exact MapKey.string.inj (Except.ok.inj heq)

/-! ## Integers -/

/-- Two names that denote no integer in common. -/
def Apart (m m' : String × Json) : Prop := ∀ n, Names m n → ¬ Names m' n

theorem keyOfJson_ne_iff (hint : k.canonical = .int) {m m' : String × Json} {key : MapKey}
    (h : keyOfJson k m.1 = .ok key) : keyOfJson k m.1 ≠ keyOfJson k m'.1 ↔ Apart m m' := by
  constructor
  · intro hne n hn hn'
    exact hne ((keyOfJson_of_names hint hn).trans (keyOfJson_of_names hint hn').symm)
  · intro hapart heq
    obtain ⟨n, rfl, hn⟩ := (keyOfJson_int hint).mp h
    obtain ⟨n', hkey, hn'⟩ := (keyOfJson_int hint).mp (heq.symm.trans h)
    cases hkey
    exact hapart n hn hn'

/-- **Of the members whose names denote one integer the last is found under it.** -/
theorem foundUnder_last (hint : k.canonical = .int) {before after : List (String × Json)}
    {m : String × Json} {n : Int64} (h : List.Forall₂ (ReadAs k v) (before ++ m :: after) read)
    (hn : Names m n) (hlast : ∀ m' ∈ after, ¬ Names m' n) :
    FoundUnder v (Entries.ofList read) n m.2 := by
  refine lookup_last h (keyOfJson_of_names hint hn) fun m' hm' hkey => hlast m' hm' ?_
  obtain ⟨n', hn', hname⟩ := (keyOfJson_int hint).mp hkey
  cases hn'
  exact hname

/-- **No member is lost exactly where no two names denote one integer.** -/
theorem lossless_iff (hint : k.canonical = .int) (h : List.Forall₂ (ReadAs k v) members read) :
    Lossless v members (Entries.ofList read) ↔ members.Pairwise Apart := by
  have hkeys : ∀ {m}, m ∈ members → ∃ key, keyOfJson k m.1 = .ok key := fun hm =>
    ((exists_ofJsonEntries.mp ⟨read, ofJsonEntries_eq_ok.mpr h⟩) _ hm).1
  have hpairwise : members.Pairwise (fun m m' => keyOfJson k m.1 ≠ keyOfJson k m'.1) ↔
      members.Pairwise Apart := by
    refine List.Pairwise.iff_of_mem fun {m m'} hm _ => ?_
    obtain ⟨key, hkey⟩ := hkeys hm
    exact keyOfJson_ne_iff hint hkey
  rw [← hpairwise, ← length_ofJsonEntries h]
  refine ⟨Lossless.length_eq, fun hlength => ⟨hlength, fun m hm n hn => ?_⟩⟩
  have hapart := hpairwise.mp ((length_ofJsonEntries h).mp hlength)
  obtain ⟨before, after, rfl⟩ := List.append_of_mem hm
  obtain ⟨-, hapart, -⟩ := List.pairwise_append.mp hapart
  exact foundUnder_last hint h hn fun m' hm' => (List.pairwise_cons.mp hapart).1 m' hm' n hn

/-- **An object as a map from integers.**  It is read where each name denotes an integer and each
member is read.  The keys of the map are the integers denoted, every one once, and under it
stands the last of the members whose names denote it; no member is lost exactly where no two
names denote one integer. -/
theorem ofJson_int_keys (hmap : t.unwrapped = .map k v) (hint : k.canonical = .int) :
    ((∃ w, ofJson (Option.some t) (.object members) = .ok w) ↔
      ∀ m ∈ members, (∃ n, Names m n) ∧ ∃ w, ofJson (Option.some v) m.2 = .ok w) ∧
    ∀ w, ofJson (Option.some t) (.object members) = .ok w → ∃ es, w = .map es ∧
      (es.map Prod.fst).Nodup ∧
      (∀ key, key ∈ es.map Prod.fst ↔ ∃ m ∈ members, ∃ n, key = .int n ∧ Names m n) ∧
      (∀ before m after n, members = before ++ m :: after → Names m n →
        (∀ m' ∈ after, ¬ Names m' n) → FoundUnder v es n m.2) ∧
      (Lossless v members es ↔ members.Pairwise Apart) := by
  constructor
  · have hname : ∀ m : String × Json, (∃ key, keyOfJson k m.1 = .ok key) ↔ ∃ n, Names m n := by
      simp [keyOfJson_int hint]
    simp only [ofJson_map hmap, ← hname, ← exists_ofJsonEntries, ofJsonEntries_eq_ok]
    exact ⟨fun ⟨_, read, h, _⟩ => ⟨read, h⟩, fun ⟨read, h⟩ => ⟨_, read, h, rfl⟩⟩
  · intro w hw
    obtain ⟨read, h, rfl⟩ := (ofJson_map hmap).mp hw
    refine ⟨_, rfl, Entries.nodup_insertAll List.nodup_nil, fun key => ?_, ?_, lossless_iff hint h⟩
    · rw [Entries.mem_keys_ofList, mem_keys_ofJsonEntries h]
      simp only [keyOfJson_int hint]
    · rintro before m after n rfl hn hlast
      exact foundUnder_last hint h hn hlast

/-- Behind an option and an alias a map loses one of three members: both `+7` and `7`
denote the same integer. -/
theorem ofJson_int_keys_seven :
    let t : Ty := .option (.aliased "Names" (.map (.aliased "Id" .int) (.option .string)))
    let members := [("+7", Json.null), ("-3", Json.string "x"), ("7", Json.string "y")]
    ∃ es, ofJson (Option.some t) (.object members) = .ok (.map es) ∧
      FoundUnder (.option .string) es 7 (.string "y") ∧
        ¬ Lossless (.option .string) members es := by
  intro t members
  obtain ⟨hread, hentries⟩ :=
    @ofJson_int_keys t (.aliased "Id" .int) (.option .string) members rfl rfl
  have hseven : Names ("7", .string "y") 7 := Numeral.readInt64_eq_some.mp (by decide +kernel)
  have hplus : Names ("+7", .null) 7 := Numeral.readInt64_eq_some.mp (by decide +kernel)
  have hthree : Names ("-3", .string "x") (-3) := Numeral.readInt64_eq_some.mp (by decide +kernel)
  have hmembers : ∀ m ∈ members, (∃ n, Names m n) ∧
      ∃ w, ofJson (Option.some (.option .string)) m.2 = .ok w := by
    simp only [members, List.forall_mem_cons]
    exact ⟨⟨⟨7, hplus⟩, _, rfl⟩, ⟨⟨-3, hthree⟩, _, rfl⟩, ⟨⟨7, hseven⟩, _, rfl⟩,
      List.forall_mem_nil _⟩
  obtain ⟨w, hw⟩ := hread.mpr hmembers
  obtain ⟨es, rfl, -, -, hlast, hlossless⟩ := hentries w hw
  refine ⟨es, hw, hlast [_, _] _ [] 7 rfl hseven (List.forall_mem_nil _), fun h => ?_⟩
  have hapart := List.pairwise_cons.mp (hlossless.mp h)
  exact hapart.1 _ (by simp) 7 hplus hseven

/-- **Not every map keeps all members**: both `01` and `1` denote the same integer. -/
theorem ofJson_not_always_lossless : ¬ ∀ (t k v : Ty) (members : List (String × Json)) (w : Value),
    t.unwrapped = .map k v → k.canonical = .int → (members.map Prod.fst).Nodup →
      ofJson (Option.some t) (.object members) = .ok w →
      ∃ es, w = .map es ∧ Lossless v members es := by
  intro h
  let members := [("01", Json.string "b"), ("1", Json.string "a")]
  have hread : ofJson (Option.some (.map .int .string)) (.object members) =
      .ok (.map [(.int 1, .string "a")]) := by rfl
  obtain ⟨es, hes, hlossless⟩ := h _ _ _ members _ rfl rfl (by decide) hread
  cases hes
  exact absurd hlossless.length_eq (by decide)

end Value

end Ascription
