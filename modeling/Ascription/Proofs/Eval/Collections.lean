import Ascription.Proofs.Eval.Run
import Mathlib.Data.List.Basic

/-!
# Proofs/Eval/Collections — going through a list or a map with a callable

    filter   v₁ ✓   v₂ ✗   v₃ ✓   …        keeps v₁, v₃ and the rest of those that pass
    some     v₁ ✗   v₂ ✗   v₃ ✓            stops at v₃
    map      v₁ ↦ w₁   v₂ ↦ w₂   v₃ fails   fails as v₃ does

The outcome of the callable is taken to depend on nothing but the element it is called with; then so
is what each loop makes of the element, and the loops are folds that stop at the first error.
-/

namespace Ascription

/-! ## Computations with one outcome -/

namespace Run

variable {ε α β γ δ : Type}

/-- **Yielding**: one value or error, whatever identity comes next. -/
def Yields (m : Run ε α) (r : Except ε α) : Prop :=
  ∀ next, ∃ next', m next = ofExcept r next'

namespace Yields

variable {m : Run ε α} {f : α → Run ε β} {r : Except ε β} {a : α} {e : ε}

theorem pure : (Pure.pure a : Run ε α).Yields (.ok a) := fun next => ⟨next, rfl⟩

theorem fail : (Run.fail e : Run ε α).Yields (.error e) := fun next => ⟨next, rfl⟩

theorem bind (h : m.Yields (.ok a)) (hf : (f a).Yields r) : (m >>= f).Yields r := by
  intro next
  obtain ⟨n, hm⟩ := h next
  rw [bind_value hm]
  exact hf n

theorem bind_error (h : m.Yields (.error e)) : (m >>= f).Yields (.error e) := by
  intro next
  obtain ⟨n, hm⟩ := h next
  exact ⟨n, Run.bind_error hm⟩

/-- The value of a run is the one that is yielded. -/
theorem eq_ok {r : Except ε α} (h : m.Yields r) {next next' : Nat} (hm : m next = .value a next') :
    r = .ok a := by
  obtain ⟨n, hn⟩ := h next
  rw [hn] at hm
  cases r with
  | ok b => exact congrArg Except.ok (pure_eq_value.mp hm).1
  | error e => cases hm

end Yields

/-- **A loop** that takes a step for the element of each entry, from the first on, and
joins what the steps give. -/
structure Loop (element : α → δ) (step : δ → Run ε γ) (join : α → γ → β → β) (start : β)
    (loop : List α → Run ε β) : Prop where
  nil : loop [] = Pure.pure start
  cons a as : loop (a :: as) =
    step (element a) >>= fun c => loop as >>= fun b => Pure.pure (join a c b)

namespace Loop

variable {element : α → δ} {step : δ → Run ε γ} {join : α → γ → β → β} {start : β}
  {loop : List α → Run ε β} {as : List α}

/-- **A loop joins what its steps yield.** -/
theorem yields (h : Loop element step join start loop) {g : δ → γ}
    (hsteps : ∀ d ∈ as.map element, (step d).Yields (.ok (g d))) :
    (loop as).Yields (.ok (as.foldr (fun a => join a (g (element a))) start)) := by
  induction as with
  | nil =>
    rw [h.nil]
    exact .pure
  | cons a as ih =>
    obtain ⟨ha, hsteps⟩ := List.forall_mem_cons.mp hsteps
    rw [h.cons]
    exact ha.bind ((ih hsteps).bind .pure)

/-- **A loop fails as the first step that fails.** -/
theorem yields_error (h : Loop element step join start loop) {before after : List δ} {d : δ} {e : ε}
    (has : as.map element = before ++ d :: after)
    (hbefore : ∀ d ∈ before, ∃ c, (step d).Yields (.ok c)) (hd : (step d).Yields (.error e)) :
    (loop as).Yields (.error e) := by
  induction before generalizing as with
  | nil =>
    obtain ⟨a, as, rfl, rfl, -⟩ := List.map_eq_cons_iff.mp has
    rw [h.cons]
    exact hd.bind_error
  | cons b before ih =>
    obtain ⟨a, as, rfl, rfl, hrest⟩ := List.map_eq_cons_iff.mp has
    obtain ⟨⟨c, hc⟩, hbefore⟩ := List.forall_mem_cons.mp hbefore
    rw [h.cons]
    exact hc.bind (ih hrest hbefore).bind_error

end Loop

end Run

/-- Either each item has the property, or there is a first one that does not. -/
theorem forall_or_first {α : Type} (P : α → Prop) (as : List α) :
    (∀ a ∈ as, P a) ∨
      ∃ before a after, as = before ++ a :: after ∧ (∀ b ∈ before, P b) ∧ ¬P a := by
  classical
  cases h : as.find? fun a => decide (¬P a) with
  | none => exact .inl (by simpa using List.find?_eq_none.mp h)
  | some a =>
    obtain ⟨ha, before, after, rfl, hbefore⟩ := List.find?_eq_some_iff_append.mp h
    exact .inr ⟨before, a, after, rfl, by simpa using hbefore, of_decide_eq_true ha⟩

/-! ## Lists and maps -/

/-- **A list or a map.** -/
inductive Collection
  | list (items : List Value)
  | map (entries : List (MapKey × Value))

namespace Collection

def toValue : Collection → Value
  | list vs => .list vs
  | map es => .map es

/-- The items of a list, the values of a map. -/
def elements : Collection → List Value
  | list vs => vs
  | map es => es.map Prod.snd

/-- What is left without the elements that fail a test; the entries of a map keep their keys. -/
def keep (p : Value → Bool) : Collection → Collection
  | list vs => list (vs.filter p)
  | map es => map (es.filter fun e => p e.2)

/-- The collection with each element replaced by its image; the entries of a map keep their keys. -/
def image (f : Value → Value) : Collection → Collection
  | list vs => list (vs.map f)
  | map es => map (es.map fun e => (e.1, f e.2))

variable {c : Collection} {p : Value → Bool}

theorem elements_keep : (c.keep p).elements = c.elements.filter p := by
  cases c with
  | list vs => rfl
  | map es => exact List.filter_map.symm

theorem keep_keep : (c.keep p).keep p = c.keep p := by
  cases c <;> simp [keep, List.filter_filter]

end Collection

namespace Builtin

variable {call : Caller} {b : Builtin} {code : Code} {i : Nat} {v : Value}

theorem foldr_keep {α : Type} {p : α → Bool} {as : List α} :
    as.foldr (fun a kept => if p a then a :: kept else kept) [] = as.filter p := by
  simp only [List.filter_eq_foldr, cond_eq_ite]

/-! ## The loops -/

section Loops

variable {t : Value → Run RuntimeError Bool} {f : Value → Run RuntimeError Value}

theorem loop_keepItems :
    Run.Loop id t (fun v pass kept => if pass then v :: kept else kept) [] (keepItems t) :=
  ⟨rfl, fun _ _ => rfl⟩

theorem loop_keepEntries :
    Run.Loop Prod.snd t (fun e pass kept => if pass then e :: kept else kept) [] (keepEntries t) :=
  ⟨rfl, fun _ _ => rfl⟩

theorem loop_mapItems : Run.Loop id f (fun _ w ws => w :: ws) [] (mapItems f) :=
  ⟨rfl, fun _ _ => rfl⟩

theorem loop_mapEntries :
    Run.Loop Prod.snd f (fun e w ws => (e.1, w) :: ws) [] (mapEntries f) :=
  ⟨rfl, fun _ _ => rfl⟩

/-- **Going through the items for one that passes** stops at the first that does. -/
theorem anyItem_append {p : Value → Bool} {before after : List Value} {r : Except RuntimeError Bool}
    (hbefore : ∀ v ∈ before, (t v).Yields (.ok (p v))) (hafter : (anyItem t after).Yields r) :
    (anyItem t (before ++ after)).Yields (if before.any p then .ok true else r) := by
  induction before with
  | nil => exact hafter
  | cons v before ih =>
    obtain ⟨hv, hbefore⟩ := List.forall_mem_cons.mp hbefore
    refine hv.bind ?_
    rw [List.any_cons]
    cases p v with
    | true => exact .pure
    | false => exact ih hbefore

theorem anyItem_yields {p : Value → Bool} {vs : List Value}
    (h : ∀ v ∈ vs, (t v).Yields (.ok (p v))) : (anyItem t vs).Yields (.ok (vs.any p)) := by
  have hend : (anyItem t (vs ++ [])).Yields (if vs.any p then .ok true else .ok false) :=
    anyItem_append h .pure
  rw [List.append_nil] at hend
  cases hany : vs.any p <;> simpa [hany] using hend

end Loops

/-! ## Predicates -/

/-- Is the outcome of a predicate the answer `true`? -/
def affirms : Except RuntimeError Value → Bool
  | .ok (.bool answer) => answer
  | _ => false

/-- **The error of a function whose predicate has no answer**: the predicate's own, or that it
returns something else. -/
def fault (b : Builtin) : Except RuntimeError Value → RuntimeError
  | .ok v => .badArgument b.name 1 .predicate ("one returning " ++ v.typeName)
  | .error e => e

/-- **An outcome that is an answer.** -/
def Answer (outcome : Except RuntimeError Value) : Prop := ∃ a, outcome = .ok (.bool a)

theorem test_of_answer {r : Except RuntimeError Value} (h : (call code [v]).Yields r)
    (hr : Answer r) : (test call b code v).Yields (.ok (affirms r)) := by
  obtain ⟨a, rfl⟩ := hr
  exact h.bind .pure

theorem test_of_fault {r : Except RuntimeError Value} (h : (call code [v]).Yields r)
    (hr : ¬Answer r) : (test call b code v).Yields (.error (fault b r)) := by
  cases r with
  | error e => exact h.bind_error
  | ok w =>
    refine h.bind ?_
    cases w with
    | bool a => exact absurd ⟨a, rfl⟩ hr
    | _ => exact .fail

/-! ## The functions -/

section Functions

variable {c : Collection} {o : Value → Except RuntimeError Value}

theorem filter_yields (h : ∀ v ∈ c.elements, (call code [v]).Yields (o v))
    (hanswers : ∀ v ∈ c.elements, Answer (o v)) :
    (run call filter [c.toValue, .callable i code]).Yields
      (.ok (c.keep fun v => affirms (o v)).toValue) := by
  have htest : ∀ v ∈ c.elements, (test call filter code v).Yields (.ok (affirms (o v))) :=
    fun v hv => test_of_answer (h v hv) (hanswers v hv)
  cases c with
  | list vs =>
    have hloop := loop_keepItems.yields (by simpa using htest)
    rw [foldr_keep] at hloop
    exact hloop.bind .pure
  | map es =>
    have hloop := loop_keepEntries.yields htest
    rw [foldr_keep] at hloop
    exact hloop.bind .pure

theorem filter_yields_error {before after : List Value}
    (hsplit : c.elements = before ++ v :: after)
    (h : ∀ v ∈ c.elements, (call code [v]).Yields (o v))
    (hbefore : ∀ u ∈ before, Answer (o u)) (hv : ¬Answer (o v)) :
    (run call filter [c.toValue, .callable i code]).Yields (.error (fault filter (o v))) := by
  rw [hsplit, List.forall_mem_append, List.forall_mem_cons] at h
  have hsteps : ∀ u ∈ before, ∃ a, (test call filter code u).Yields (.ok a) := fun u hu =>
    ⟨_, test_of_answer (h.1 u hu) (hbefore u hu)⟩
  have hfails : (test call filter code v).Yields (.error (fault filter (o v))) :=
    test_of_fault h.2.1 hv
  cases c with
  | list vs =>
    exact (loop_keepItems.yields_error ((List.map_id _).trans hsplit) hsteps hfails).bind_error
  | map es => exact (loop_keepEntries.yields_error hsplit hsteps hfails).bind_error

/-- A collection that was filtered is its own filtering. -/
theorem filter_keep_yields (h : ∀ v ∈ c.elements, (call code [v]).Yields (o v))
    (hanswers : ∀ v ∈ c.elements, Answer (o v)) :
    (run call filter [(c.keep fun v => affirms (o v)).toValue, .callable i code]).Yields
      (.ok (c.keep fun v => affirms (o v)).toValue) := by
  have hsub : ∀ v ∈ (c.keep fun v => affirms (o v)).elements, v ∈ c.elements := by
    rw [Collection.elements_keep]
    exact fun v hv => (List.mem_filter.mp hv).1
  have hagain := filter_yields (i := i) (fun v hv => h v (hsub v hv)) fun v hv =>
    hanswers v (hsub v hv)
  rwa [Collection.keep_keep] at hagain

/-- Where `filter` gives a value the callable has an answer for each element. -/
theorem answers_of_filter {d : Value} {next next' : Nat}
    (h : ∀ v ∈ c.elements, (call code [v]).Yields (o v))
    (hd : run call filter [c.toValue, .callable i code] next = .value d next') :
    ∀ v ∈ c.elements, Answer (o v) := by
  obtain hanswers | ⟨before, v, after, hsplit, hbefore, hv⟩ :=
    forall_or_first (fun v => Answer (o v)) c.elements
  · exact hanswers
  · exact nomatch (filter_yields_error hsplit h hbefore hv).eq_ok hd

theorem map_yields {g : Value → Value} (h : ∀ v ∈ c.elements, (call code [v]).Yields (.ok (g v))) :
    (run call map [c.toValue, .callable i code]).Yields (.ok (c.image g).toValue) := by
  cases c with
  | list vs =>
    have hloop := loop_mapItems.yields (by simpa using h)
    rw [← List.map_eq_foldr] at hloop
    exact hloop.bind .pure
  | map es =>
    have hloop := loop_mapEntries.yields h
    rw [← List.map_eq_foldr] at hloop
    exact hloop.bind .pure

/-- Where the callable gives a value for each element there is one function that gives them. -/
theorem exists_image (h : ∀ v ∈ c.elements, ∃ w, o v = .ok w) :
    ∃ g : Value → Value, ∀ v ∈ c.elements, o v = .ok (g v) := by
  refine ⟨fun v => (o v).toOption.getD .none, fun v hv => ?_⟩
  obtain ⟨w, hw⟩ := h v hv
  simp only [hw, Except.toOption, Option.getD_some]

theorem map_yields_error {before after : List Value} {e : RuntimeError}
    (hsplit : c.elements = before ++ v :: after)
    (h : ∀ v ∈ c.elements, (call code [v]).Yields (o v))
    (hbefore : ∀ u ∈ before, ∃ w, o u = .ok w) (hv : o v = .error e) :
    (run call map [c.toValue, .callable i code]).Yields (.error e) := by
  rw [hsplit, List.forall_mem_append, List.forall_mem_cons] at h
  have hsteps : ∀ u ∈ before, ∃ w, (call code [u]).Yields (.ok w) := fun u hu =>
    (hbefore u hu).imp fun w (hw : o u = .ok w) => hw ▸ h.1 u hu
  have hfails : (call code [v]).Yields (.error e) := hv ▸ h.2.1
  cases c with
  | list vs =>
    exact (loop_mapItems.yields_error ((List.map_id _).trans hsplit) hsteps hfails).bind_error
  | map es => exact (loop_mapEntries.yields_error hsplit hsteps hfails).bind_error

/-- Where `map` gives a value the callable has an image of each element. -/
theorem images_of_map {d : Value} {next next' : Nat}
    (h : ∀ v ∈ c.elements, (call code [v]).Yields (o v))
    (hd : run call map [c.toValue, .callable i code] next = .value d next') :
    ∀ v ∈ c.elements, ∃ w, o v = .ok w := by
  obtain himages | ⟨before, v, after, hsplit, hbefore, hv⟩ :=
    forall_or_first (fun v => ∃ w, o v = .ok w) c.elements
  · exact himages
  · cases hov : o v with
    | ok w => exact absurd ⟨w, hov⟩ hv
    | error e => exact nomatch (map_yields_error hsplit h hbefore hov).eq_ok hd

theorem some_yields {vs : List Value} (h : ∀ v ∈ vs, (call code [v]).Yields (o v))
    (hanswers : ∀ v ∈ vs, Answer (o v)) :
    (run call some [.list vs, .callable i code]).Yields
      (.ok (.bool (vs.any fun v => affirms (o v)))) :=
  (anyItem_yields fun v hv => test_of_answer (h v hv) (hanswers v hv)).bind .pure

theorem some_yields_error {before after : List Value}
    (h : ∀ u ∈ before ++ v :: after, (call code [u]).Yields (o u))
    (hbefore : ∀ u ∈ before, Answer (o u)) (hv : ¬Answer (o v)) :
    (run call some [.list (before ++ v :: after), .callable i code]).Yields
      (if before.any fun u => affirms (o u) then .ok (.bool true)
        else .error (fault some (o v))) := by
  rw [List.forall_mem_append, List.forall_mem_cons] at h
  have hfails : (anyItem (test call some code) (v :: after)).Yields (.error (fault some (o v))) :=
    (test_of_fault h.2.1 hv).bind_error
  have hloop := anyItem_append (fun u hu => test_of_answer (h.1 u hu) (hbefore u hu)) hfails
  split at hloop
  case isTrue hany =>
    rw [if_pos hany]
    exact hloop.bind .pure
  case isFalse hany =>
    rw [if_neg hany]
    exact hloop.bind_error

/-- The items that pass count more than none when there is one, in a list no longer than a memory of
64-bit addresses holds. -/
theorem count_pos {p : Value → Bool} {vs : List Value} (h : vs.length < 9223372036854775808) :
    decide (0 < Int64.ofNat (vs.filter p).length) = vs.any p := by
  have hlt : (vs.filter p).length < 9223372036854775808 :=
    Nat.lt_of_le_of_lt (List.length_filter_le p vs) h
  rw [Bool.eq_iff_iff, decide_eq_true_iff, List.any_eq_true, ← List.length_filter_pos_iff,
    Int64.lt_iff_toInt_lt, Int64.toInt_ofNat_of_lt hlt]
  exact Int.natCast_pos

theorem count_yields {c : Collection} :
    (run call count [c.toValue]).Yields (.ok (.int (Int64.ofNat c.elements.length))) := by
  cases c with
  | list vs => exact .pure
  | map es =>
    rw [Collection.elements, List.length_map]
    exact .pure

end Functions

/-- **`filter`, `some`, `map` and `count` go through a list or map alike**, for a callable whose
outcomes depend on nothing but the elements.

What `filter` gives is what passes, which it gives again; `some` says whether a list has any such
item, that is whether they count more than none, no list being too long to count.  Where the
callable has no answer for an element, `filter` fails at the first such element, and `some` does too
but for an item before it that passes.  What `map` gives is the images, and it fails as the first
element that has none. -/
theorem filter_some_map_count_alike {o : Value → Except RuntimeError Value} (c : Collection)
    (h : ∀ v ∈ c.elements, (call code [v]).Yields (o v)) :
    (∀ d next next', run call filter [c.toValue, .callable i code] next = .value d next' →
      d = (c.keep fun v => affirms (o v)).toValue ∧
        (run call filter [d, .callable i code]).Yields (.ok d) ∧
        ∀ vs, c = .list vs → vs.length < 9223372036854775808 →
          ∃ n, (run call count [d]).Yields (.ok (.int n)) ∧
            (run call some [c.toValue, .callable i code]).Yields (.ok (.bool (decide (0 < n))))) ∧
    ((∀ v ∈ c.elements, Answer (o v)) →
      ∃ d, (run call filter [c.toValue, .callable i code]).Yields (.ok d)) ∧
    (∀ before v after, c.elements = before ++ v :: after → (∀ u ∈ before, Answer (o u)) →
      ¬Answer (o v) →
      (run call filter [c.toValue, .callable i code]).Yields (.error (fault filter (o v))) ∧
        ∀ vs, c = .list vs →
          (run call some [c.toValue, .callable i code]).Yields
            (if before.any fun u => affirms (o u) then .ok (.bool true)
            else .error (fault some (o v)))) ∧
    (∀ d next next', run call map [c.toValue, .callable i code] next = .value d next' →
      ∃ g : Value → Value, (∀ v ∈ c.elements, o v = .ok (g v)) ∧ d = (c.image g).toValue) ∧
    ((∀ v ∈ c.elements, ∃ w, o v = .ok w) →
      ∃ d, (run call map [c.toValue, .callable i code]).Yields (.ok d)) ∧
    ∀ before v after e, c.elements = before ++ v :: after → (∀ u ∈ before, ∃ w, o u = .ok w) →
      o v = .error e → (run call map [c.toValue, .callable i code]).Yields (.error e) := by
  refine ⟨fun d next next' hd => ?kept, fun hanswers => ⟨_, filter_yields h hanswers⟩,
    fun before v after hsplit hbefore hv => ⟨filter_yields_error hsplit h hbefore hv, ?some⟩,
    fun d next next' hd => ?images, fun himages => ?mapped,
    fun before v after e hsplit hbefore hv => map_yields_error hsplit h hbefore hv⟩
  case kept =>
    have hanswers := answers_of_filter h hd
    obtain rfl := Except.ok.inj ((filter_yields h hanswers).eq_ok hd)
    refine ⟨rfl, filter_keep_yields h hanswers, ?_⟩
    rintro vs rfl hlength
    refine ⟨_, count_yields, ?_⟩
    rw [Collection.elements_keep, Collection.elements, count_pos hlength]
    exact some_yields h hanswers
  case some =>
    rintro vs rfl
    obtain rfl : vs = _ := hsplit
    exact some_yields_error h hbefore hv
  case images =>
    obtain ⟨g, hg⟩ := exists_image (images_of_map h hd)
    have hmap := map_yields (i := i) fun v hv => hg v hv ▸ h v hv
    exact ⟨g, hg, Except.ok.inj (hmap.eq_ok hd).symm⟩
  case mapped =>
    obtain ⟨g, hg⟩ := exists_image himages
    exact ⟨_, map_yields fun v hv => hg v hv ▸ h v hv⟩

/-- Which elements are positive? A text is an error of the callable, and for the rest it has no
answer. -/
theorem filter_some_map_count_alike_positive :
    let o : Value → Except RuntimeError Value
      | .int n => .ok (.bool (decide (0 < n)))
      | .string s => .error (.undefinedVariable s)
      | v => .ok v
    let call := Code.callAt (fun _ args => .finish (o (args.headD .none))) 1
    let p : Value := .callable 0 (.host "positive")
    let es := [(.int 7, .int (-1)), (.string "a", .int 4)]
    let vs := [.int (-2), .none, .string "x"]
    (run call filter [.map es, p]).Yields (.ok (.map [(.string "a", .int 4)])) ∧
      (run call filter [.list vs, p]).Yields
        (.error (.badArgument "filter" 1 .predicate "one returning None")) ∧
      (run call some [.list vs, p]).Yields
        (.error (.badArgument "some" 1 .predicate "one returning None")) ∧
      (run call map [.list vs, p]).Yields (.error (.undefinedVariable "x")) := by
  intro o call p es vs
  have hcall : ∀ v, (call (.host "positive") [v]).Yields (o v) := fun v next => ⟨next, rfl⟩
  obtain ⟨hkept, hanswered, -⟩ :=
    filter_some_map_count_alike (i := 0) (.map es) fun v _ => hcall v
  obtain ⟨-, -, hfault, -, -, herror⟩ :=
    filter_some_map_count_alike (i := 0) (.list vs) fun v _ => hcall v
  obtain ⟨hfilter, hsome⟩ := hfault [.int (-2)] .none [.string "x"] rfl
    (List.forall_mem_singleton.mpr ⟨_, rfl⟩) nofun
  refine ⟨?kept, hfilter, hsome vs rfl, ?mapped⟩
  case kept =>
    have hanswers : ∀ v ∈ [.int (-1), .int 4], Answer (o v) :=
      List.forall_mem_cons.mpr ⟨⟨_, rfl⟩, List.forall_mem_singleton.mpr ⟨_, rfl⟩⟩
    obtain ⟨d, hd⟩ := hanswered hanswers
    obtain ⟨n, hn⟩ := hd 0
    obtain ⟨rfl, -⟩ := hkept _ _ _ hn
    exact hd
  case mapped =>
    have himages : ∀ v ∈ [.int (-2), .none], ∃ w, o v = .ok w :=
      List.forall_mem_cons.mpr ⟨⟨_, rfl⟩, List.forall_mem_singleton.mpr ⟨_, rfl⟩⟩
    exact herror _ _ [] _ rfl himages rfl

end Builtin

end Ascription
