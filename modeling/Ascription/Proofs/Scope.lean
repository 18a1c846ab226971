import Ascription.Proofs.Declarations
import Ascription.Scope

/-!
# Proofs/Scope — a scope binds each name once

    extend none vs fs      ──▸  ⟨vs, built-ins and fs⟩
    extend (some p) vs fs  ──▸  ⟨vs, fs⟩ :: p             where p sees no name of vs or fs

A look-up walks outwards and takes the first binding it meets, so it reads the bindings of all
levels as one list (`value?_eq_lookup`).  In a scope that is built level by level that list repeats
no name: the first binding is the only one, and a new level hides nothing.
-/

namespace Ascription

namespace Scope

/-! ## Levels as one list -/

/-- All visible functions, those of the innermost level first. -/
def functions (s : Scope) : List (String × FunctionEntry) := s.flatMap Level.functions

section

variable {V : Type} {entries : Level → List (String × V)} {s p : Scope} {name : String} {v : V}

theorem findSome?_lookup :
    s.findSome? (fun l => (entries l).lookup name) = (s.flatMap entries).lookup name := by
  induction s with
  | nil => rfl
  | cons l s ih =>
    rw [List.findSome?_cons, List.flatMap_cons, List.lookup_append, ih]
    cases (entries l).lookup name <;> rfl

/-- Levels whose bindings repeat no name bind no name twice. -/
theorem pairwise_of_nodup (h : ((s.flatMap entries).map Prod.fst).Nodup) :
    s.Pairwise fun l l' => ∀ name ∈ (entries l).map Prod.fst, name ∉ (entries l').map Prod.fst := by
  rw [List.map_flatMap, List.Nodup, List.pairwise_flatMap] at h
  exact h.2.imp fun hne name hname hname' => hne name hname name hname' rfl

/-- What an enclosing scope sees is seen inside, if no name is repeated. -/
theorem lookup_of_suffix (h : ((s.flatMap entries).map Prod.fst).Nodup) (hp : p <:+ s)
    (hv : (p.flatMap entries).lookup name = some v) : (s.flatMap entries).lookup name = some v := by
  obtain ⟨q, rfl⟩ := hp
  refine Entries.lookup_of_mem h ?_
  rw [List.flatMap_append]
  exact List.mem_append_right _ (Entries.mem_of_lookup hv)

/-- A level whose names the enclosing scope does not see repeats none of them. -/
theorem nodup_cons {l : Level} (hl : ((entries l).map Prod.fst).Nodup)
    (hs : ((s.flatMap entries).map Prod.fst).Nodup)
    (hnew : ∀ name ∈ (entries l).map Prod.fst, (s.flatMap entries).lookup name = none) :
    (((l :: s).flatMap entries).map Prod.fst).Nodup := by
  rw [List.flatMap_cons, List.map_append, List.nodup_append]
  refine ⟨hl, hs, fun name hname name' hname' => ?_⟩
  rintro rfl
  obtain ⟨e, he, rfl⟩ := List.mem_map.mp hname'
  have hfound := Entries.lookup_of_mem hs he
  rw [hnew _ hname] at hfound
  cases hfound

end

theorem value?_eq_lookup {s : Scope} {name : String} : s.value? name = s.values.lookup name :=
  findSome?_lookup

theorem function?_eq_lookup {s : Scope} {name : String} :
    s.function? name = s.functions.lookup name := findSome?_lookup

/-! ## Building a level -/

theorem bindVariables_eq_ok {parent : Scope} {done values vs : List (String × Value)} :
    bindVariables parent done values = .ok vs ↔
      (∀ e ∈ values, parent.value? e.1 = none) ∧ vs = Entries.insertAll done values := by
  induction values generalizing done with
  | nil => exact ⟨fun h => ⟨nofun, (Except.ok.inj h).symm⟩, fun h => congrArg _ h.2.symm⟩
  | cons e values ih =>
    rw [bindVariables, List.forall_mem_cons]
    cases hname : parent.value? e.1 with
    | some v => simp
    | none => exact ih.trans (by simp [Entries.insertAll])

theorem bindFunctions_eq_ok {parent : Scope} {done functions fs : List (String × FunctionEntry)} :
    bindFunctions parent done functions = .ok fs ↔
      (∀ e ∈ functions, Builtin.isName e.1 = false ∧ parent.function? e.1 = none) ∧
        fs = Entries.insertAll done functions := by
  induction functions generalizing done with
  | nil => exact ⟨fun h => ⟨nofun, (Except.ok.inj h).symm⟩, fun h => congrArg _ h.2.symm⟩
  | cons e functions ih =>
    rw [bindFunctions, List.forall_mem_cons]
    cases hreserved : Builtin.isName e.1 with
    | true => simp
    | false =>
      cases hname : parent.function? e.1 with
      | some f => simp
      | none => exact ih.trans (by simp [Entries.insertAll])

/-- **A new level** binds what it is given, none of it visible before. -/
theorem extend_eq_ok {parent : Option Scope} {values : List (String × Value)}
    {functions : List (String × FunctionEntry)} {s : Scope} :
    extend parent values functions = .ok s ↔
      (∀ e ∈ values, (parent.getD []).value? e.1 = none) ∧
      (∀ e ∈ functions, Builtin.isName e.1 = false ∧ (parent.getD []).function? e.1 = none) ∧
      s = .mk (Entries.ofList values)
        (Entries.insertAll (if parent.isNone then builtins else []) functions) ::
          parent.getD [] := by
  rw [extend, Except.bind_eq_ok]
  simp only [Except.bind_eq_ok, bindVariables_eq_ok, bindFunctions_eq_ok]
  constructor
  · rintro ⟨vs, ⟨hvs, rfl⟩, fs, ⟨hfs, rfl⟩, ⟨⟩⟩
    exact ⟨hvs, hfs, rfl⟩
  · rintro ⟨hvs, hfs, rfl⟩
    exact ⟨_, ⟨hvs, rfl⟩, _, ⟨hfs, rfl⟩, rfl⟩

/-- A level of variables inside a scope. -/
theorem sub_eq_ok {s inner : Scope} {values : List (String × Value)} :
    s.sub values = .ok inner ↔
      (∀ e ∈ values, s.value? e.1 = none) ∧ inner = .mk (Entries.ofList values) [] :: s :=
  extend_eq_ok.trans ⟨fun ⟨h, _, hinner⟩ => ⟨h, hinner⟩, fun ⟨h, hinner⟩ => ⟨h, nofun, hinner⟩⟩

theorem sub_eq_map {s : Scope} {values : List (String × Value)} :
    s.sub values = (bindVariables s [] values).map fun vs => .mk vs [] :: s := by
  rw [sub, extend, Option.getD_some]
  cases bindVariables s [] values <;> rfl

/-! ## Reached scopes -/

/-- **A scope that constructions reach**: the outermost level of a new scope, or a level inside a
scope that was reached.  `sub` and the call of a closure add a level without functions. -/
inductive Reached : Scope → Prop
  | outermost {values functions s} (built : extend none values functions = .ok s) : Reached s
  | level {p values functions s} (parent : Reached p)
      (built : extend (some p) values functions = .ok s) : Reached s

/-- **No name is repeated** along the levels, and the outermost one binds the built-in functions. -/
structure BoundOnce (s : Scope) : Prop where
  nodup_values : (s.values.map Prod.fst).Nodup
  nodup_functions : (s.functions.map Prod.fst).Nodup
  outermost : ∃ inner l, s = inner ++ [l] ∧
    ∀ b : Builtin, (b.name, .mk (some b.signature) (.builtin b)) ∈ l.functions

theorem nodup_builtins : (builtins.map Prod.fst).Nodup := by decide

theorem lookup_builtins (b : Builtin) :
    builtins.lookup b.name = some (.mk (some b.signature) (.builtin b)) := by
  cases b <;> rfl

theorem builtin_of_function?_root {name : String} {f : FunctionEntry}
    (h : root.function? name = some f) : ∃ b : Builtin, name = b.name ∧ f.code = .builtin b := by
  have hlookup : builtins.lookup name = some f := by
    simpa [function?, root, Level.functions] using h
  obtain ⟨b, -, hb⟩ := List.mem_map.mp (Entries.mem_of_lookup hlookup)
  cases hb
  exact ⟨b, rfl, rfl⟩

theorem isName_name (b : Builtin) : Builtin.isName b.name = true := by
  cases b <;> rfl

/-- **What is reached binds each name once**: a level that would bind one again is refused. -/
theorem Reached.boundOnce {s : Scope} (h : s.Reached) : s.BoundOnce := by
  induction h with
  | outermost built =>
    obtain ⟨-, hfunctions, rfl⟩ := extend_eq_ok.mp built
    refine ⟨?values, ?functions, [], _, rfl, fun b => Entries.mem_of_lookup ?builtin⟩
    case values =>
      exact nodup_cons (Entries.nodup_insertAll List.nodup_nil) List.nodup_nil fun _ _ => rfl
    case functions =>
      exact nodup_cons (Entries.nodup_insertAll nodup_builtins) List.nodup_nil fun _ _ => rfl
    case builtin =>
      refine (Entries.lookup_insertAll_of_notMem fun hb => ?_).trans (lookup_builtins b)
      obtain ⟨e, he, hname⟩ := List.mem_map.mp hb
      have hreserved := (hfunctions e he).1
      rw [hname, isName_name] at hreserved
      cases hreserved
  | level parent built ih =>
    obtain ⟨hvalues, hfunctions, rfl⟩ := extend_eq_ok.mp built
    obtain ⟨inner, l, hp, hbuiltins⟩ := ih.outermost
    refine ⟨?values, ?functions, _ :: inner, l, congrArg _ hp, hbuiltins⟩
    case values =>
      refine nodup_cons (Entries.nodup_insertAll List.nodup_nil) ih.nodup_values
        fun name hname => ?_
      obtain ⟨e, he, rfl⟩ := List.mem_map.mp hname
      exact value?_eq_lookup.symm.trans (hvalues e (Entries.mem_of_mem_ofList he))
    case functions =>
      refine nodup_cons (Entries.nodup_insertAll List.nodup_nil) ih.nodup_functions
        fun name hname => ?_
      obtain ⟨e, he, rfl⟩ := List.mem_map.mp hname
      exact function?_eq_lookup.symm.trans (hfunctions e (Entries.mem_of_mem_ofList he)).2

namespace BoundOnce

variable {s p : Scope} {name : String}

/-- **All visible variables are listed**, each with the value it is bound to. -/
theorem mem_values (h : s.BoundOnce) {v : Value} :
    (name, v) ∈ s.values ↔ s.value? name = some v := by
  rw [value?_eq_lookup]
  exact ⟨Entries.lookup_of_mem h.nodup_values, Entries.mem_of_lookup⟩

theorem value?_of_suffix (h : s.BoundOnce) (hp : p <:+ s) {v : Value}
    (hv : p.value? name = some v) : s.value? name = some v := by
  rw [value?_eq_lookup] at hv ⊢
  exact lookup_of_suffix h.nodup_values hp hv

theorem function?_of_suffix (h : s.BoundOnce) (hp : p <:+ s) {f : FunctionEntry}
    (hf : p.function? name = some f) : s.function? name = some f := by
  rw [function?_eq_lookup] at hf ⊢
  exact lookup_of_suffix h.nodup_functions hp hf

/-- The built-in functions are bound on the outermost level and on no other. -/
theorem builtins_outermost (h : s.BoundOnce) :
    ∃ inner l, s = inner ++ [l] ∧
      (∀ b : Builtin, l.functions.lookup b.name = some (.mk (some b.signature) (.builtin b))) ∧
      ∀ l' ∈ inner, ∀ b : Builtin, b.name ∉ l'.functions.map Prod.fst := by
  obtain ⟨inner, l, rfl, hbuiltins⟩ := h.outermost
  have hlevels := pairwise_of_nodup h.nodup_functions
  have hl : (l.functions.map Prod.fst).Nodup := by
    have hall := h.nodup_functions
    rw [functions, List.flatMap_append, List.map_append, List.nodup_append] at hall
    simpa using hall.2.1
  refine ⟨inner, l, rfl, fun b => Entries.lookup_of_mem hl (hbuiltins b), fun l' hl' b hb => ?_⟩
  exact (List.pairwise_append.mp hlevels).2.2 l' hl' l List.mem_cons_self b.name hb
    (List.mem_map_of_mem (hbuiltins b))

theorem function?_name (h : s.BoundOnce) (b : Builtin) :
    s.function? b.name = some (.mk (some b.signature) (.builtin b)) := by
  obtain ⟨inner, l, rfl, hbuiltins⟩ := h.outermost
  rw [function?_eq_lookup]
  refine Entries.lookup_of_mem h.nodup_functions ?_
  rw [functions, List.flatMap_append]
  exact List.mem_append_right _ (by simpa using hbuiltins b)

end BoundOnce

end Scope

/-! ## Declarations -/

namespace Value

mutual

/-- Only a type that cannot be inferred is an error of inference. -/
theorem infer_eq_error : ∀ {v : Value} {e : RuntimeError}, infer v = .error e →
    ∃ reason, e = .cannotInferType reason
  | .list [], _, h | .map [], _, h | .callable _ _, _, h => ⟨_, (Except.error.inj h).symm⟩
  | .list (v :: _), _, h | .map ((_, v) :: _), _, h =>
    infer_eq_error (v := v) (Except.map_eq_error.mp h)
  | .record Option.none fields, e, h =>
    @inferFields_eq_error fields e (Except.map_eq_error.mp h)

theorem inferFields_eq_error : ∀ {fields : List (String × Value)} {e : RuntimeError},
    inferFields fields = .error e → ∃ reason, e = .cannotInferType reason
  | (name, v) :: rest, e, h => by
    obtain h | ⟨t, -, h⟩ := Except.bind_eq_error.mp h
    · exact infer_eq_error h
    · obtain h | ⟨ts, -, h⟩ := Except.bind_eq_error.mp h
      · exact inferFields_eq_error h
      · cases h

end

end Value

namespace Scope

/-- Declaring variables of different names fails only where a type cannot be inferred. -/
theorem declareAll_eq_error {done : Declarations} {values : List (String × Value)}
    (h : (done.map Declaration.name ++ values.map Prod.fst).Nodup) {e : RuntimeError}
    (he : declareAll done values = .error e) : ∃ reason, e = .cannotInferType reason := by
  induction values generalizing done with
  | nil => cases he
  | cons entry values ih =>
    obtain ⟨name, v⟩ := entry
    obtain he | ⟨t, -, he⟩ := Except.bind_eq_error.mp he
    · cases hv : v.infer with
      | ok t =>
        rw [hv] at he
        cases he
      | error e' =>
        rw [hv] at he
        obtain ⟨reason, rfl⟩ := Value.infer_eq_error hv
        exact ⟨_, (Except.error.inj he).symm⟩
    · have hnew : name ∉ done.map Declaration.name := fun hmem =>
        (List.nodup_append.mp h).2.2 name hmem name List.mem_cons_self rfl
      simp only [Declarations.declareSynthetic, Declarations.declare,
        Declarations.find?_eq_none.mpr hnew] at he
      refine ih ?_ he
      simpa using h

/-- **Each name is bound once.**  In a scope that is reached no name is bound on two levels and the
built-in functions are bound on the outermost one; what an enclosing scope sees is seen inside; the
variables are listed once each, and only a type that cannot be inferred keeps them from being
declared. -/
theorem reached_bound_once {s : Scope} (h : s.Reached) :
    (s.Pairwise fun l l' => ∀ name ∈ l.values.map Prod.fst, name ∉ l'.values.map Prod.fst) ∧
    (s.Pairwise fun l l' => ∀ name ∈ l.functions.map Prod.fst, name ∉ l'.functions.map Prod.fst) ∧
    (∃ inner l, s = inner ++ [l] ∧
      (∀ b : Builtin, l.functions.lookup b.name = some (.mk (some b.signature) (.builtin b))) ∧
      ∀ l' ∈ inner, ∀ b : Builtin, b.name ∉ l'.functions.map Prod.fst) ∧
    (∀ b : Builtin, s.function? b.name = some (.mk (some b.signature) (.builtin b))) ∧
    (∀ p : Scope, p <:+ s → ∀ name,
      (∀ v, p.value? name = some v → s.value? name = some v) ∧
      ∀ f, p.function? name = some f → s.function? name = some f) ∧
    (s.values.map Prod.fst).Nodup ∧
    (∀ name v, (name, v) ∈ s.values ↔ s.value? name = some v) ∧
    ∀ e, s.declarations = .error e → ∃ reason, e = .cannotInferType reason := by
  have hs := h.boundOnce
  refine ⟨pairwise_of_nodup hs.nodup_values, pairwise_of_nodup hs.nodup_functions,
    hs.builtins_outermost, hs.function?_name, fun p hp name => ?_, hs.nodup_values,
    fun name v => hs.mem_values, fun e he => ?_⟩
  · exact ⟨fun v => hs.value?_of_suffix hp, fun f => hs.function?_of_suffix hp⟩
  · exact @declareAll_eq_error [] s.values hs.nodup_values e he

/-- A level with a variable of its own, inside one that binds a function of the host. -/
theorem reached_bound_once_nested : ∃ p s : Scope,
    extend none [("a", .int 1)] [("upper", .mk none (.host "upper"))] = .ok p ∧
    p.sub [("b", .bool true)] = .ok s ∧ s.Reached ∧ s.value? "a" = some (.int 1) ∧
    s.function? "count" = some (.mk (some Builtin.count.signature) (.builtin .count)) ∧
    (s.values.map Prod.fst).Nodup := by
  have hp : extend none [("a", .int 1)] [("upper", .mk none (.host "upper"))] =
      .ok [.mk [("a", .int 1)] (builtins ++ [("upper", .mk none (.host "upper"))])] := rfl
  have hs : sub [.mk [("a", .int 1)] (builtins ++ [("upper", .mk none (.host "upper"))])]
      [("b", .bool true)] = .ok [.mk [("b", .bool true)] [],
        .mk [("a", .int 1)] (builtins ++ [("upper", .mk none (.host "upper"))])] := rfl
  have hreached := Reached.level (.outermost hp) hs
  obtain ⟨-, -, -, hbuiltins, hvisible, hnodup, -⟩ := reached_bound_once hreached
  exact ⟨_, _, hp, hs, hreached, (hvisible _ (List.suffix_cons _ _) "a").1 _ rfl,
    hbuiltins .count, hnodup⟩

end Scope

end Ascription
