import Ascription.Proofs.Eval.Ends
import Ascription.Proofs.Value.MapCode
import Mathlib.Data.List.Forall2

/-!
# Proofs/Value/Related — values that differ in what their callables do

    R c d  ──▸  .callable i c  ~  .callable i d         and the same data around them

A relation between codes relates values: their data is the same, their callables have the same
identities and related code.  So it relates the levels of scopes, and what is looked up there.
Data is related to nothing but itself, and what looks at two related values without calling
them sees no difference.
-/

namespace Ascription

/-! ## Entries -/

/-- **Entries with related values**: the same keys, in the same order. -/
inductive Entries.Related {K V W : Type} (P : V → W → Prop) : List (K × V) → List (K × W) → Prop
  | nil : Related P [] []
  | cons {k v w es fs} (value : P v w) (rest : Related P es fs) :
      Related P ((k, v) :: es) ((k, w) :: fs)

namespace Entries.Related

variable {K V W : Type} {P : V → W → Prop} {es es' : List (K × V)} {fs fs' : List (K × W)}

theorem length_eq (h : Related P es fs) : es.length = fs.length := by
  induction h with
  | nil => rfl
  | cons _ _ ih => exact congrArg (· + 1) ih

theorem same {P : V → V → Prop} (h : ∀ e ∈ es, P e.2 e.2) : Related P es es := by
  induction es with
  | nil => exact .nil
  | cons e es ih =>
    obtain ⟨he, h⟩ := List.forall_mem_cons.mp h
    exact .cons he (ih h)

theorem eq_of_forall {P : V → V → Prop} {fs : List (K × V)} (h : Related P es fs)
    (heq : ∀ e ∈ es, ∀ w, P e.2 w → e.2 = w) : es = fs := by
  induction h with
  | nil => rfl
  | @cons k v w es fs value _ ih =>
    obtain ⟨he, heq⟩ := List.forall_mem_cons.mp heq
    obtain rfl : v = w := he w value
    rw [ih heq]

theorem values (h : Related P es fs) :
    List.Forall₂ P (es.map Prod.snd) (fs.map Prod.snd) := by
  induction h with
  | nil => exact .nil
  | cons value _ ih => exact .cons value ih

theorem imp {Q : V → W → Prop} (h : Related P es fs) (hPQ : ∀ v w, P v w → Q v w) :
    Related Q es fs := by
  induction h with
  | nil => exact .nil
  | cons value _ ih => exact .cons (hPQ _ _ value) ih

theorem keys_eq (h : Related P es fs) : es.map Prod.fst = fs.map Prod.fst := by
  induction h with
  | nil => rfl
  | cons _ _ ih => exact congrArg (_ :: ·) ih

theorem append (h : Related P es fs) (h' : Related P es' fs') :
    Related P (es ++ es') (fs ++ fs') := by
  induction h with
  | nil => exact h'
  | cons value _ ih => exact .cons value ih

theorem zip {names : List K} {vs : List V} {ws : List W} (h : List.Forall₂ P vs ws) :
    Related P (names.zip vs) (names.zip ws) := by
  induction h generalizing names with
  | nil =>
    rw [List.zip_nil_right, List.zip_nil_right]
    exact .nil
  | cons value _ ih =>
    cases names with
    | nil => exact .nil
    | cons name names => exact .cons value ih

variable [DecidableEq K]

theorem lookup (h : Related P es fs) (k : K) : Option.Rel P (es.lookup k) (fs.lookup k) := by
  induction h with
  | nil => exact .none
  | @cons k' v w es fs value _ ih =>
    rw [List.lookup_cons, List.lookup_cons]
    cases k == k' with
    | true => exact .some value
    | false => exact ih

theorem insert (h : Related P es fs) {k : K} {v : V} {w : W} (value : P v w) :
    Related P (Entries.insert k v es) (Entries.insert k w fs) := by
  induction h with
  | nil => exact .cons value .nil
  | @cons k' v' w' es fs value' rest ih =>
    rw [Entries.insert, Entries.insert]
    split
    case isTrue => exact .cons value rest
    case isFalse => exact .cons value' ih

theorem insertAll (hstart : Related P es fs) (h : Related P es' fs') :
    Related P (Entries.insertAll es es') (Entries.insertAll fs fs') := by
  induction h generalizing es fs with
  | nil => exact hstart
  | cons value _ ih => exact ih (hstart.insert value)

theorem ofList (h : Related P es fs) : Related P (Entries.ofList es) (Entries.ofList fs) :=
  insertAll .nil h

end Entries.Related

theorem getElem?_related {α β : Type} {P : α → β → Prop} {as : List α} {bs : List β}
    (h : List.Forall₂ P as bs) (i : Nat) : Option.Rel P as[i]? bs[i]? := by
  induction h generalizing i with
  | nil => exact .none
  | cons h _ ih =>
    cases i with
    | zero => exact .some h
    | succ i => exact ih i

/-- Looking through one more level. -/
theorem findSome?_cons_related {α β γ δ : Type} {P : γ → δ → Prop} {f : α → Option γ}
    {g : β → Option δ} {a : α} {b : β} {as : List α} {bs : List β} (h : Option.Rel P (f a) (g b))
    (hrest : Option.Rel P (as.findSome? f) (bs.findSome? g)) :
    Option.Rel P ((a :: as).findSome? f) ((b :: bs).findSome? g) := by
  rw [List.findSome?_cons, List.findSome?_cons]
  generalize f a = o, g b = o' at h
  cases h with
  | some value => exact .some value
  | none => exact hrest

/-! ## Values -/

/-- **Related values**: the same data, callables of the same identity with related code. -/
inductive Value.Related (R : Code → Code → Prop) : Value → Value → Prop
  | string {s} : Related R (.string s) (.string s)
  | int {n} : Related R (.int n) (.int n)
  | float {x} : Related R (.float x) (.float x)
  | bool {b} : Related R (.bool b) (.bool b)
  | none : Related R .none .none
  | list {vs ws} (items : List.Forall₂ (Related R) vs ws) : Related R (.list vs) (.list ws)
  | map {es fs} (entries : Entries.Related (Related R) es fs) : Related R (.map es) (.map fs)
  | record {kind es fs} (fields : Entries.Related (Related R) es fs) :
      Related R (.record kind es) (.record kind fs)
  | callable {i c d} (code : R c d) : Related R (.callable i c) (.callable i d)

namespace Value.Related

variable {R : Code → Code → Prop} {f g : Code → Code} {v w v' w' : Value}

mutual

/-- Related values agree once a replacement makes their code agree. -/
theorem mapCode_eq (hR : ∀ c d, R c d → f c = g d) : ∀ {v w : Value}, Related R v w →
    v.mapCode f = w.mapCode g
  | _, _, .string | _, _, .int | _, _, .float | _, _, .bool | _, _, .none => rfl
  | _, _, .list items => by rw [mapCode, mapCode, mapCodeItems_eq hR items]
  | _, _, .map entries => by rw [mapCode, mapCode, mapCodeEntries_eq hR entries]
  | _, _, .record fields => by rw [mapCode, mapCode, mapCodeFields_eq hR fields]
  | _, _, .callable code => by rw [mapCode, mapCode, hR _ _ code]

theorem mapCodeItems_eq (hR : ∀ c d, R c d → f c = g d) : ∀ {vs ws : List Value},
    List.Forall₂ (Related R) vs ws → mapCodeItems f vs = mapCodeItems g ws
  | _, _, .nil => rfl
  | _, _, .cons h hs => by
    rw [mapCodeItems, mapCodeItems, mapCode_eq hR h, mapCodeItems_eq hR hs]

theorem mapCodeEntries_eq (hR : ∀ c d, R c d → f c = g d) : ∀ {es fs : List (MapKey × Value)},
    Entries.Related (Related R) es fs → mapCodeEntries f es = mapCodeEntries g fs
  | _, _, .nil => rfl
  | _, _, .cons h hs => by
    rw [mapCodeEntries, mapCodeEntries, mapCode_eq hR h, mapCodeEntries_eq hR hs]

theorem mapCodeFields_eq (hR : ∀ c d, R c d → f c = g d) : ∀ {es fs : List (String × Value)},
    Entries.Related (Related R) es fs → mapCodeFields f es = mapCodeFields g fs
  | _, _, .nil => rfl
  | _, _, .cons h hs => by
    rw [mapCodeFields, mapCodeFields, mapCode_eq hR h, mapCodeFields_eq hR hs]

end

/-! ### What shows no difference -/

theorem exists_mapCode_eq (h : Related R v w) : ∃ f, v.mapCode f = w.mapCode f :=
  ⟨fun _ => .host "", h.mapCode_eq fun _ _ _ => rfl⟩

theorem typeName_eq (h : Related R v w) : v.typeName = w.typeName := by
  cases h <;> rfl

theorem toKey?_eq (h : Related R v w) : v.toKey? = w.toKey? := by
  cases h <;> rfl

theorem text_eq (h : Related R v w) : v.text = w.text := by
  obtain ⟨f, hf⟩ := h.exists_mapCode_eq
  rw [← text_mapCode v, hf, text_mapCode]

theorem check_eq (h : Related R v w) (t : Ty) : v.check t = w.check t := by
  obtain ⟨f, hf⟩ := h.exists_mapCode_eq
  rw [← check_mapCode, hf, check_mapCode]

theorem equal_eq (h : Related R v w) (h' : Related R v' w') : v.equal v' = w.equal w' := by
  obtain ⟨f, hf⟩ := h.exists_mapCode_eq
  obtain ⟨g, hg⟩ := h'.exists_mapCode_eq
  rw [← equal_mapCode v v', hf, hg, equal_mapCode]

theorem binary_eq (h : Related R v w) (h' : Related R v' w') (op : BinaryOp) :
    binary op v v' = binary op w w' := by
  obtain ⟨f, hf⟩ := h.exists_mapCode_eq
  obtain ⟨g, hg⟩ := h'.exists_mapCode_eq
  rw [← binary_mapCode, hf, hg, binary_mapCode]

theorem negate_eq (h : Related R v w) : v.negate = w.negate := by
  obtain ⟨f, hf⟩ := h.exists_mapCode_eq
  rw [← negate_mapCode, hf, negate_mapCode]

/-! ### Data -/

theorem of_inert (hv : v.Inert) : Related R v v := by
  induction hv with
  | string => exact .string
  | int => exact .int
  | float => exact .float
  | bool => exact .bool
  | none => exact .none
  | list _ ih => exact .list (List.forall₂_same.mpr ih)
  | map _ ih => exact .map (.same ih)
  | record _ ih => exact .record (.same ih)

/-- **Data is related to itself alone.** -/
theorem eq_of_inert (hv : v.Inert) (h : Related R v w) : v = w := by
  induction hv generalizing w with
  | string | int | float | bool | none =>
    cases h
    rfl
  | list _ ih =>
    cases h with
    | list items =>
      have hitems := ((List.forall₂_and_left _ _).mpr ⟨ih, items⟩).imp fun a b h => h.1 h.2
      rw [List.forall₂_eq_eq_eq] at hitems
      exact congrArg Value.list hitems
  | map _ ih =>
    cases h with
    | map entries => exact congrArg Value.map (entries.eq_of_forall fun e he w => ih e he)
  | record _ ih =>
    cases h with
    | record fields => exact congrArg (Value.record _) (fields.eq_of_forall fun e he w => ih e he)

end Value.Related

/-! ## Levels -/

/-- Functions with the same signature and related code. -/
inductive FunctionEntry.Related (R : Code → Code → Prop) : FunctionEntry → FunctionEntry → Prop
  | mk {signature c d} (code : R c d) : Related R (.mk signature c) (.mk signature d)

theorem FunctionEntry.Related.code {R : Code → Code → Prop} {f g : FunctionEntry}
    (h : Related R f g) : R f.code g.code := by
  cases h
  assumption

/-- **Levels that bind related values and functions** to the same names. -/
inductive Level.Related (R : Code → Code → Prop) : Level → Level → Prop
  | mk {vs ws fs gs} (values : Entries.Related (Value.Related R) vs ws)
      (functions : Entries.Related (FunctionEntry.Related R) fs gs) :
      Related R (.mk vs fs) (.mk ws gs)

namespace Scope

variable {R : Code → Code → Prop} {s s' : Scope}

theorem value?_related (h : List.Forall₂ (Level.Related R) s s') (name : String) :
    Option.Rel (Value.Related R) (s.value? name) (s'.value? name) := by
  induction h with
  | nil => exact .none
  | cons level _ ih =>
    cases level with
    | mk values => exact findSome?_cons_related (values.lookup name) ih

theorem function?_related (h : List.Forall₂ (Level.Related R) s s') (name : String) :
    Option.Rel (fun f f' => R f.code f'.code) (s.function? name) (s'.function? name) := by
  induction h with
  | nil => exact .none
  | cons level _ ih =>
    cases level with
    | mk _ functions =>
      exact findSome?_cons_related
        ((functions.imp fun _ _ => FunctionEntry.Related.code).lookup name) ih

end Scope

end Ascription
