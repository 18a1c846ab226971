import Ascription.Proofs.Rule

/-!
# Proofs/Ty/Equal — equality of types as an equivalence

    a ≈ b ≈ c  ⟹  a ≈ c      always
    a ≈ b      ⟹  b ≈ a      unless an object poses as a list or a function

Names are compared first, and then the left type alone says whether arguments are.  A host object
may be called `list`: on the left it is equal to every list, for it has no arguments to compare,
and on the right to none.
-/

namespace Ascription

namespace Ty

variable {a b c : Ty}

/-! ## What each form is equal to -/

theorem canonical_canonical : ∀ {t : Ty}, t.canonical.canonical = t.canonical
  | .aliased _ t => canonical_canonical (t := t)
  | .any | .string | .int | .float | .bool | .none | .never | .func _ _ | .list _ | .map _ _
  | .struct _ | .option _ | .some _ | .object _ => rfl

theorem equal_canonical_right : ∀ {a b : Ty}, a.equal b.canonical = a.equal b
  | .aliased _ a, _ => by
    rw [equal, equal]
    exact equal_canonical_right (a := a)
  | .list _, _ | .func _ _, _ => by rw [equal, equal, canonical_canonical]
  | .any, _ | .string, _ | .int, _ | .float, _ | .bool, _ | .none, _ | .never, _ | .map _ _, _
  | .struct _, _ | .option _, _ | .some _, _ | .object _, _ =>
    congrArg (_ == name ·) canonical_canonical

theorem equal_list {x : Ty} :
    (list x).equal b = true ↔ ∃ y, b.canonical = list y ∧ x.equal y = true := by
  rw [equal]
  cases b.canonical <;> simp

theorem equal_func {r : Ty} {ps : List Ty} : (func r ps).equal b = true ↔
    ∃ r' ps', b.canonical = func r' ps' ∧ r.equal r' = true ∧ equalAll ps ps' = true := by
  rw [equal]
  cases b.canonical with
  | func r' ps' =>
    rw [Bool.and_eq_true]
    constructor
    · rintro ⟨hr, hps⟩
      exact ⟨r', ps', rfl, hr, hps⟩
    · rintro ⟨_, _, ⟨⟩, h⟩
      exact h
  | _ => simp

/-- A type that goes by its name alone. -/
def Named : Ty → Prop
  | list _ | func _ _ | aliased _ _ => False
  | _ => True

theorem equal_named (h : Named a) : a.equal b = true ↔ a.name = b.canonical.name := by
  cases a with
  | list | func | aliased => exact h.elim
  | _ => exact beq_iff_eq

/-! ## Transitivity -/

mutual

/-- **Equality is transitive.** -/
theorem equal_trans : ∀ {a b c : Ty}, a.equal b = true → b.equal c = true → a.equal c = true
  | .aliased _ a, _, _, h, h' => by
    rw [equal] at h ⊢
    exact equal_trans (a := a) h h'
  | .list _, _, _, h, h' => by
    obtain ⟨y, hb, hy⟩ := equal_list.mp h
    rw [← equal_canonical, hb] at h'
    obtain ⟨z, hc, hz⟩ := equal_list.mp h'
    exact equal_list.mpr ⟨z, hc, equal_trans hy hz⟩
  | .func _ _, _, _, h, h' => by
    obtain ⟨r, ps, hb, hr, hps⟩ := equal_func.mp h
    rw [← equal_canonical, hb] at h'
    obtain ⟨r', ps', hc, hr', hps'⟩ := equal_func.mp h'
    exact equal_func.mpr ⟨r', ps', hc, equal_trans hr hr', equalAll_trans hps hps'⟩
  | .any, _, _, h, h' | .string, _, _, h, h' | .int, _, _, h, h' | .float, _, _, h, h'
  | .bool, _, _, h, h' | .none, _, _, h, h' | .never, _, _, h, h' | .map _ _, _, _, h, h'
  | .struct _, _, _, h, h' | .option _, _, _, h, h' | .some _, _, _, h, h'
  | .object _, _, _, h, h' =>
    (equal_named (by trivial)).mpr (((equal_named (by trivial)).mp h).trans (name_eq_of_equal h'))

theorem equalAll_trans : ∀ {ps qs rs : List Ty}, equalAll ps qs = true → equalAll qs rs = true →
    equalAll ps rs = true
  | [], [], _, _, h' => h'
  | _ :: _, _ :: _, [], _, h' => nomatch h'
  | _ :: _, _ :: _, _ :: _, h, h' => by
    rw [equalAll, Bool.and_eq_true] at h h' ⊢
    exact ⟨equal_trans h.1 h'.1, equalAll_trans h.2 h'.2⟩

end

/-! ## Symmetry -/

/-- A host object with the name of a form whose arguments are compared. -/
def Posing (t : Ty) : Prop := t = object "list" ∨ t = object "Func"

/-- **No object in the type poses** as a list or a function. -/
def Upright (t : Ty) : Prop := ¬ Mentions Posing t

theorem Upright.parts (h : Upright a) (hb : b ∈ a.parts) : Upright b := (not_mentions.mp h).2 b hb

/-- A type that is no object is upright if its parts are. -/
theorem Upright.of_parts (ha : ∀ name, a ≠ object name) (h : ∀ s ∈ a.parts, Upright s) :
    Upright a :=
  not_mentions.mpr ⟨fun hpose => hpose.elim (ha _) (ha _), h⟩

/-- A type that goes by its name is no list or function under that name, unless an object poses. -/
theorem named_of_name_eq (ha : Upright a) (hn : Named a) (hb : b.canonical = b)
    (h : a.name = b.name) : Named b := by
  have hpose : ¬ Posing a := (not_mentions.mp ha).1
  cases b with
  | list | func => cases a <;> simp_all [Named, name, Posing]
  | aliased _ t => exact absurd hb canonical_ne_aliased
  | _ => trivial

mutual

/-- **Equality is symmetric** where no object poses. -/
theorem equal_symm : ∀ {a b : Ty}, Upright a → Upright b → a.equal b = true → b.equal a = true
  | .aliased _ a, b, ha, hb, h => by
    rw [equal] at h
    have hsymm : b.equal a.canonical = true :=
      equal_canonical_right.trans (equal_symm (ha.parts (List.mem_singleton_self a)) hb h)
    exact equal_canonical_right.symm.trans hsymm
  | .list _, _, ha, hb, h => by
    obtain ⟨y, hy, h⟩ := equal_list.mp h
    have hb : Upright (list y) := hy ▸ not_mentions_canonical hb
    have hsymm := equal_symm (ha.parts List.mem_cons_self) (hb.parts List.mem_cons_self) h
    rw [← equal_canonical, hy]
    exact equal_list.mpr ⟨_, rfl, hsymm⟩
  | .func r ps, _, ha, hb, h => by
    obtain ⟨r', ps', hf, hr, hps⟩ := equal_func.mp h
    have hb : Upright (func r' ps') := hf ▸ not_mentions_canonical hb
    have hresult := equal_symm (ha.parts List.mem_cons_self) (hb.parts List.mem_cons_self) hr
    have hparams := equalAll_symm (fun p hp => ha.parts (List.mem_cons_of_mem r hp))
      (fun p hp => hb.parts (List.mem_cons_of_mem r' hp)) hps
    rw [← equal_canonical, hf]
    exact equal_func.mpr ⟨_, _, rfl, hresult, hparams⟩
  | .any, _, ha, _, h | .string, _, ha, _, h | .int, _, ha, _, h | .float, _, ha, _, h
  | .bool, _, ha, _, h | .none, _, ha, _, h | .never, _, ha, _, h | .map _ _, _, ha, _, h
  | .struct _, _, ha, _, h | .option _, _, ha, _, h | .some _, _, ha, _, h
  | .object _, _, ha, _, h => by
    have hname := (equal_named (by trivial)).mp h
    rw [← equal_canonical]
    exact (equal_named (named_of_name_eq ha trivial canonical_canonical hname)).mpr hname.symm

theorem equalAll_symm : ∀ {ps qs : List Ty}, (∀ p ∈ ps, Upright p) → (∀ q ∈ qs, Upright q) →
    equalAll ps qs = true → equalAll qs ps = true
  | [], [], _, _, _ => rfl
  | _ :: _, _ :: _, hps, hqs, h => by
    rw [equalAll, Bool.and_eq_true] at h ⊢
    rw [List.forall_mem_cons] at hps hqs
    exact ⟨equal_symm hps.1 hqs.1 h.1, equalAll_symm hps.2 hqs.2 h.2⟩

end

theorem equal_comm (ha : Upright a) (hb : Upright b) : a.equal b = b.equal a :=
  Bool.eq_iff_iff.mpr ⟨equal_symm ha hb, equal_symm hb ha⟩

/-! ## The equivalence -/

/-- **Equality of types is an equivalence**, and so `===` takes two types either way round or not at
all.  Only symmetry needs that no object poses as a list or a function. -/
theorem equal_equivalence (a b c : Ty) (s t : Span) :
    a.equal a = true ∧
    (a.equal b = true → b.equal c = true → a.equal c = true) ∧
    (a.Upright → b.Upright → a.equal b = b.equal a ∧
      (Rule.equality ⟨a, s⟩ ⟨b, t⟩ = .ok () ↔ Rule.equality ⟨b, t⟩ ⟨a, s⟩ = .ok ())) := by
  refine ⟨equal_self a, equal_trans, fun ha hb => ⟨equal_comm ha hb, ?_⟩⟩
  rw [Rule.equality, Rule.equality, Rule.expectEqual_eq_ok, Rule.expectEqual_eq_ok,
    equal_comm ha hb]

/-- A function on users that returns a list of numbers, with aliases in different places. -/
theorem equal_equivalence_functions :
    let user : Ty := .object "User"
    let lookup : Ty := .func (.list (.aliased "id" .int)) [user]
    let index : Ty := .aliased "index" (.func (.list .int) [.aliased "user" user])
    let plain : Ty := .func (.list .int) [user]
    let left : Span := ⟨⟨1, 1⟩, ⟨1, 4⟩⟩
    let right : Span := ⟨⟨1, 8⟩, ⟨1, 11⟩⟩
    lookup.equal lookup = true ∧ lookup.equal plain = true ∧
      lookup.equal index = index.equal lookup ∧
      (Rule.equality ⟨lookup, left⟩ ⟨index, right⟩ = .ok () ↔
        Rule.equality ⟨index, right⟩ ⟨lookup, left⟩ = .ok ()) := by
  intro user lookup index plain left right
  have hpart : ∀ {s t : Ty}, (∀ name, t ≠ object name) → t.parts = [s] → s.Upright → t.Upright :=
    fun ht h hs => .of_parts ht (h ▸ List.forall_mem_singleton.mpr hs)
  have huser : user.Upright := not_mentions.mpr ⟨by simp [user, Posing], by simp [user, Ty.parts]⟩
  have hint : Upright .int := .of_parts nofun (List.forall_mem_nil _)
  have hids : Upright (.list (.aliased "id" .int)) := hpart nofun rfl (hpart nofun rfl hint)
  have hints : Upright (.list .int) := hpart nofun rfl hint
  have hlookup : lookup.Upright := .of_parts nofun (by simp [lookup, Ty.parts, hids, huser])
  have halias : Upright (.aliased "user" user) := hpart nofun rfl huser
  have hindex : index.Upright :=
    hpart nofun rfl (.of_parts nofun (by simp [Ty.parts, hints, halias]))
  have heq : lookup.equal index = true ∧ index.equal plain = true := by
    simp [lookup, index, plain, user, equal, equalAll, Ty.canonical, name]
  obtain ⟨hrefl, htrans, hcomm⟩ := equal_equivalence lookup index plain left right
  exact ⟨hrefl, htrans heq.1 heq.2, hcomm hlookup hindex⟩

/-- Equality of all types is no equivalence: an object called `list` is equal to every list, and no
list to it. -/
theorem equal_not_equivalence : ¬ ((∀ a : Ty, a.equal a = true) ∧
    (∀ a b : Ty, a.equal b = b.equal a) ∧
    ∀ a b c : Ty, a.equal b = true → b.equal c = true → a.equal c = true) := by
  rintro ⟨-, hcomm, -⟩
  have h : (list int).equal (object "list") = (object "list").equal (list int) := hcomm _ _
  simp [equal, canonical, name] at h

end Ty

end Ascription
