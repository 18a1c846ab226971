import Ascription.Proofs.Expr.Decidable
import Ascription.Proofs.Ty.Text

/-!
# Proofs/Ty/ReadsBack — a type that was read is read back from its text

    source ──parse──▸ t ──text──▸ source' ──parse──▸ t

A type that was read can be written (`Ty.Printable`), and so can every type written in it.  The text
shows the alias and not what it stands for, so what is written in an alias is its name alone.
-/

namespace Ascription

namespace Ty

/-- The types that the text of a type is put together from; an alias is written as its name. -/
def writtenParts : Ty → List Ty
  | aliased _ _ => []
  | t => t.parts

/-- **Being written in a type**: the type itself, or written in one of its written parts. -/
inductive WrittenIn : Ty → Ty → Prop
  | refl {t} : WrittenIn t t
  | part {s p t} (mem : p ∈ t.writtenParts) (within : WrittenIn s p) : WrittenIn s t

theorem mem_parts_of_mem_writtenParts {p t : Ty} (h : p ∈ t.writtenParts) : p ∈ t.parts := by
  cases t with
  | aliased => cases h
  | _ => exact h

/-- The keys of a map are numbers or strings behind their aliases, and the fields of a struct have
different names. -/
def Regular : Ty → Prop
  | map k _ => k.canonical = int ∨ k.canonical = string
  | struct fields => (fields.map Prod.fst).Nodup
  | _ => True

theorem canonical_of_isKey {k : Ty} (h : k.isKey = true) :
    k.canonical = int ∨ k.canonical = string := by
  rw [isKey] at h
  split at h
  case h_1 hk => exact .inl hk
  case h_2 hk => exact .inr hk
  case h_3 => cases h

namespace Printable

variable {r : Registry} {p s t : Ty}

/-- What a printable type is put together from is printable. -/
theorem written (h : Printable r t) (hp : p ∈ t.writtenParts) : Printable r p := by
  cases h with
  | primitive hn =>
    have hparts := mem_parts_of_mem_writtenParts hp
    rw [(Registry.primitive?_parts hn).1] at hparts
    cases hparts
  | wrapper hn arg =>
    have hparts := mem_parts_of_mem_writtenParts hp
    rw [(Registry.wrapper?_parts hn _).1] at hparts
    obtain rfl := List.mem_singleton.mp hparts
    exact arg
  | map _ key value =>
    obtain rfl | hp := List.mem_cons.mp hp
    · exact key
    · obtain rfl := List.mem_singleton.mp hp
      exact value
  | func result params =>
    obtain rfl | hp := List.mem_cons.mp hp
    · exact result
    · exact params p hp
  | struct _ _ types =>
    obtain ⟨f, hf, rfl⟩ := List.mem_map.mp hp
    exact types f hf
  | aliased => cases hp

theorem writtenIn (h : Printable r t) (hs : WrittenIn s t) : Printable r s := by
  induction hs with
  | refl => exact h
  | part mem _ ih => exact ih (h.written mem)

theorem regular (h : Printable r t) : t.Regular := by
  cases h with
  | map isKey => exact canonical_of_isKey isKey
  | struct nodup => exact nodup
  | func | aliased => trivial
  | primitive hn =>
    unfold Registry.primitive? at hn
    split at hn
    case h_8 => cases hn
    all_goals
      cases hn
      trivial
  | wrapper hn =>
    unfold Registry.wrapper? at hn
    split at hn
    case h_4 => cases hn
    all_goals
      cases hn
      trivial

end Printable

end Ty

variable {r : Registry} {source : String} {t : Ty}

/-- A text that renders a type is read as the type. -/
theorem parseType_of_renders
    (h : Renders Breaks NotLess Grammar.TypeName source fun w => r.resolve w = .ok t) :
    parseType source r = .ok t := by
  obtain ⟨ks, hlex, hread⟩ := h breaks_nil notLess_nil .nil
  rw [List.append_nil] at hlex
  obtain ⟨tokens, htokens, hks⟩ := hlex.tokenize
  obtain ⟨w, ⟨stop, rest⟩, hw, hrest, ht⟩ := hread ⟨Span.point Position.first, tokens⟩ hks
  obtain rfl : rest = [] := List.map_eq_nil_iff.mp hrest
  exact parseType_eq_ok.mpr ⟨tokens, htokens, w, ⟨stop, hw⟩, ht⟩

/-- **A type that was read is read back from its text**, and is well made: the keys of every map
written in it are numbers or strings behind their aliases, and the fields of every struct written in
it have different names. -/
theorem parseType_text (hr : r.Built) (h : parseType source r = .ok t) :
    parseType t.text r = .ok t ∧
      (∀ k v, Ty.WrittenIn (.map k v) t → k.canonical = .int ∨ k.canonical = .string) ∧
      ∀ fields, Ty.WrittenIn (.struct fields) t → (fields.map Prod.fst).Nodup := by
  have hprintable := printable_of_parseType h
  refine ⟨parseType_of_renders (Registry.renders_type (hr.alias?_reserved rfl) hprintable),
    fun k v hmap => ?_, fun fields hstruct => ?_⟩
  · exact (hprintable.writtenIn hmap).regular
  · exact (hprintable.writtenIn hstruct).regular

/-- A struct with a map by an alias of numbers to lists of a host object, and a function that takes
nothing and returns one; written with trailing commas and odd spaces. -/
theorem parseType_text_struct :
    let id : Ty := .aliased "id" .int
    let users : Ty := .list (.aliased "user" (.object "User"))
    let t : Ty := .struct [("m", .map id users), ("f", .func (.func .none [id]) [])]
    ∃ r : Registry, r.Built ∧
      parseType "\x7bm :map<id,list<user,>,>, f:fn( )->fn(id,) -> None,\x7d" r = .ok t ∧
      parseType "\x7bm: map<id, list<user>>, f: fn() -> fn(id) -> None\x7d" r = .ok t ∧
      (id.canonical = .int ∨ id.canonical = .string) := by
  intro id users t
  have hid : Registry.initial.defineAlias "id" .int =
      .ok ⟨[("id", .int)], Registry.initial.functions⟩ := rfl
  have huser : Registry.defineAlias ⟨[("id", .int)], Registry.initial.functions⟩ "user"
      (.object "User") =
        .ok ⟨[("id", .int), ("user", .object "User")], Registry.initial.functions⟩ :=
    rfl
  have hbuilt := Registry.Built.defineAlias (.defineAlias .initial hid) huser
  have hread : parseType "\x7bm :map<id,list<user,>,>, f:fn( )->fn(id,) -> None,\x7d"
      ⟨[("id", .int), ("user", .object "User")], Registry.initial.functions⟩ = .ok t := by
    decide +kernel
  have htext : t.text = "\x7bm: map<id, list<user>>, f: fn() -> fn(id) -> None\x7d" := by
    decide +kernel
  obtain ⟨hagain, hkeys, -⟩ := parseType_text hbuilt hread
  rw [htext] at hagain
  exact ⟨_, hbuilt, hread, hagain, hkeys id users (.part List.mem_cons_self .refl)⟩

end Ascription
