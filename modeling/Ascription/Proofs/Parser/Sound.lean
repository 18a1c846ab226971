import Ascription.Proofs.Parser.Rules

/-!
# Proofs/Parser/Sound — what is accepted derives a phrase

    tokens ──parser──▸ tree        tokens ──grammar──▸ phrase ──second pass──▸ tree

A parser that answers has read a phrase of the grammar, and the second pass over that phrase gives
the answer and the declarations made on the way.  The induction is on the fuel of each loop; a loop
that carries a tree along also carries the phrase it came from.
-/

namespace Ascription

open Phrase Grammar

/-- The failure that ends the tokens, if there is one, still lies ahead. -/
structure Leads (s s' : ParserState) : Prop where
  failure : s'.failure = s.failure
  live : s.Live → s'.Live

namespace Leads

theorem refl (s : ParserState) : Leads s s := ⟨rfl, id⟩

theorem trans {s₁ s₂ s₃ : ParserState} (h : Leads s₁ s₂) (h' : Leads s₂ s₃) : Leads s₁ s₃ :=
  ⟨h'.failure.trans h.failure, h'.live ∘ h.live⟩

/-- Taking tokens leads on. -/
theorem take {ts ts' f p p' ds ds'} (h : ts' = [] → f = none) :
    Leads ⟨ts, f, p, ds⟩ ⟨ts', f, p', ds'⟩ := ⟨rfl, fun _ => h⟩

end Leads

/-- **What an answer has read**: something of the grammar `G` whose second pass `E` gives it. -/
structure Read {υ α : Type} (G : Place → υ → Place → Prop)
    (E : υ → Declarations → Except ParseError (α × Declarations)) (s : ParserState) (a : α)
    (s' : ParserState) : Prop where
  leads : Leads s s'
  phrase : ∃ u, G s.place u s'.place ∧ E u s.declarations = .ok (a, s'.declarations)

/-- A parser whose answers have all read something. -/
def Sound {υ α : Type} (G : Place → υ → Place → Prop)
    (E : υ → Declarations → Except ParseError (α × Declarations)) (p : Parser α) : Prop :=
  ∀ {s a s'}, p s = .done a s' → Read G E s a s'

/-- The second pass over what is kept as it is written. -/
def kept {α : Type} (a : α) (ds : Declarations) : Except ParseError (α × Declarations) :=
  .ok (a, ds)

theorem kept_eq_ok {α : Type} {a b : α} {ds ds' : Declarations} :
    kept a ds = .ok (b, ds') ↔ a = b ∧ ds' = ds := by
  rw [kept, Except.ok.injEq, Prod.mk.injEq, @eq_comm _ ds]

/-- The second pass over a type. -/
def resolved (r : Registry) (t : TypeExpr) (ds : Declarations) :
    Except ParseError (Ty × Declarations) :=
  (ruled (r.resolve t)).map fun t => (t, ds)

theorem resolved_eq_ok {r : Registry} {t : TypeExpr} {t' : Ty} {ds ds' : Declarations} :
    resolved r t ds = .ok (t', ds') ↔ r.resolve t = .ok t' ∧ ds' = ds := by
  simp only [resolved, Except.map_eq_ok, ruled_eq_ok, Prod.mk.injEq, @eq_comm _ ds]
  grind

theorem each_kept {α : Type} {done as : List α} {ds : Declarations} :
    each (fun _ => kept) done as ds = .ok (done ++ as, ds) := by
  induction as generalizing done with
  | nil => rw [each, List.append_nil]
  | cons a as ih =>
    change each _ (done ++ [a]) as ds = _
    rw [ih, List.append_assoc]
    rfl

namespace Grammar

/-- A list up to the mark that closes it. -/
def Closed {υ : Type} (Item : Place → υ → Place → Prop) (close : Punct) (c : Place)
    (us : List υ) (c' : Place) : Prop :=
  ∃ p span ts, Listed Item c us ⟨p, ⟨.punct close, span⟩ :: ts⟩ ∧ c' = ⟨span, ts⟩

end Grammar

namespace Parser

/-! ## Lists -/

/-- **A list of sound items is sound.** -/
theorem itemsFrom_sound {υ α : Type} {Item : Place → υ → Place → Prop}
    {f : List α → υ → Declarations → Except ParseError (α × Declarations)}
    {item : List α → Parser α} {close : Punct} (h : ∀ done, Sound Item (f done) (item done)) :
    ∀ n done, Sound (Closed Item close) (each f done) (itemsFrom item close n done)
  | 0, _, _, _, _, hs => absurd hs exhausted_ne_done
  | n + 1, done, s, as, s', hs => by
      obtain ⟨b, _, hb, hs⟩ := bind_eq_done.mp hs
      obtain ⟨hb, rfl⟩ := looksAt_eq_done.mp hb
      cases b with
      | true =>
        obtain ⟨span, _, hc, hs⟩ := bind_eq_done.mp hs
        obtain ⟨p, ts, f, ds, rfl, rfl, hf⟩ := expect_eq_done.mp hc
        obtain ⟨rfl, rfl⟩ := pure_eq_done.mp hs
        exact ⟨.take hf, [], ⟨p, span, ts, .none, rfl⟩, rfl⟩
      | false =>
        obtain ⟨a, s₁, ha, hs⟩ := bind_eq_done.mp hs
        obtain ⟨leads, u, hu, he⟩ := h done ha
        obtain ⟨b, s₂, hb, hs⟩ := bind_eq_done.mp hs
        obtain ⟨rfl, span, hc⟩ | ⟨rfl, -, rfl⟩ := accept_eq_done.mp hb
        · obtain ⟨p, ts, f, ds, rfl, rfl, hf⟩ := expect_eq_done.mp hc
          obtain ⟨leads', us, ⟨p', span', ts', hus, hp⟩, hes⟩ := itemsFrom_sound h n _ hs
          exact ⟨(leads.trans (.take hf)).trans leads', u :: us,
            ⟨p', span', ts', .more hu hus, hp⟩, each_cons_eq_ok.mpr ⟨a, ds, he, hes⟩⟩
        · obtain ⟨span, _, hc, hs⟩ := bind_eq_done.mp hs
          obtain ⟨p, ts, f, ds, rfl, rfl, hf⟩ := expect_eq_done.mp hc
          obtain ⟨rfl, rfl⟩ := pure_eq_done.mp hs
          exact ⟨leads.trans (.take hf), [u], ⟨p, span, ts, .one hu, rfl⟩,
            each_cons_eq_ok.mpr ⟨a, ds, he, rfl⟩⟩

theorem items_sound {υ α : Type} {Item : Place → υ → Place → Prop}
    {f : List α → υ → Declarations → Except ParseError (α × Declarations)}
    {item : List α → Parser α} {close : Punct} (h : ∀ done, Sound Item (f done) (item done)) :
    Sound (Closed Item close) (each f []) (items item close) :=
  fun hs => itemsFrom_sound h _ _ hs

theorem expectName_sound : Sound Name kept expectName := by
  intro s x s' hs
  obtain ⟨p, ts, f, ds, rfl, rfl, hf⟩ := expectName_eq_done.mp hs
  exact ⟨.take hf, x, .name, rfl⟩

/-! ## Types -/

section Types

variable {type : Parser TypeExpr}

theorem typeField_sound (h : Sound TypeName kept type) : Sound TypeField kept (typeField type) := by
  intro s x s' hs
  obtain ⟨⟨name, span⟩, _, h₁, hs⟩ := bind_eq_done.mp hs
  obtain ⟨p, ts, f, ds, rfl, rfl, -⟩ := expectName_eq_done.mp h₁
  obtain ⟨span', _, h₂, hs⟩ := bind_eq_done.mp hs
  obtain ⟨_, ts, _, _, ⟨⟩, rfl, hf⟩ := expect_eq_done.mp h₂
  obtain ⟨t, _, h₃, hs⟩ := bind_eq_done.mp hs
  obtain ⟨leads, u, hu, he⟩ := h h₃
  obtain ⟨rfl, rfl⟩ := pure_eq_done.mp hs
  cases he
  exact ⟨(Leads.take hf).trans leads, _, .field hu, rfl⟩

theorem structType_sound (h : Sound TypeName kept type) :
    Sound TypeName kept (structType type) := by
  intro s t s' hs
  obtain ⟨start, _, h₁, hs⟩ := bind_eq_done.mp hs
  obtain ⟨p, ts, f, ds, rfl, rfl, hf⟩ := expect_eq_done.mp h₁
  obtain ⟨fields, s₂, h₂, hs⟩ := bind_eq_done.mp hs
  obtain ⟨leads, us, ⟨p', span, ts', hus, hp⟩, he⟩ := items_sound (fun _ => typeField_sound h) h₂
  obtain ⟨stop, _, h₃, hs⟩ := bind_eq_done.mp hs
  obtain ⟨rfl, rfl⟩ := previousSpan_eq_done.mp h₃
  obtain ⟨rfl, rfl⟩ := pure_eq_done.mp hs
  obtain ⟨tokens, f', q, ds'⟩ := s₂
  cases hp
  cases each_kept.symm.trans he
  exact ⟨(Leads.take hf).trans leads, _, .struct hus, rfl⟩

theorem funcType_sound (h : Sound TypeName kept type) {start : Span} {ts f ds p t s'}
    (hs : funcType type start ⟨ts, f, start, ds⟩ = .done t s') :
    Read TypeName kept ⟨⟨.name "fn", start⟩ :: ts, f, p, ds⟩ t s' := by
  obtain ⟨span, _, h₁, hs⟩ := bind_eq_done.mp hs
  obtain ⟨_, ts, _, _, ⟨⟩, rfl, hf⟩ := expect_eq_done.mp h₁
  obtain ⟨params, s₂, h₂, hs⟩ := bind_eq_done.mp hs
  obtain ⟨leads, us, ⟨p', span, ts', hus, hp⟩, he⟩ := items_sound (fun _ => h) h₂
  obtain ⟨arrow, _, h₃, hs⟩ := bind_eq_done.mp hs
  obtain ⟨_, ts'', _, _, rfl, rfl, hf'⟩ := expect_eq_done.mp h₃
  obtain ⟨result, _, h₄, hs⟩ := bind_eq_done.mp hs
  obtain ⟨leads', u, hu, he'⟩ := h h₄
  obtain ⟨rfl, rfl⟩ := pure_eq_done.mp hs
  cases hp
  cases each_kept.symm.trans he
  cases he'
  exact ⟨((Leads.take hf).trans leads).trans ((Leads.take hf').trans leads'), _, .func hus hu, rfl⟩

theorem typeArgs_sound (h : Sound TypeName kept type) {name : String} {span : Span}
    {ts f ds p t s'} (hs : typeArgs type name span ⟨ts, f, span, ds⟩ = .done t s')
    (hf : ts = [] → f = none)
    (paren : name = "fn" → Place.next ⟨span, ts⟩ ≠ some (.punct .leftParen)) :
    Read TypeName kept ⟨⟨.name name, span⟩ :: ts, f, p, ds⟩ t s' := by
  obtain ⟨b, _, h₁, hs⟩ := bind_eq_done.mp hs
  obtain ⟨rfl, less, h₂⟩ | ⟨rfl, less, rfl⟩ := accept_eq_done.mp h₁
  · obtain ⟨_, ts, _, _, ⟨⟩, rfl, hf'⟩ := expect_eq_done.mp h₂
    obtain ⟨args, s₂, h₃, hs⟩ := bind_eq_done.mp hs
    obtain ⟨leads, us, ⟨p', span', ts', hus, hp⟩, he⟩ := items_sound (fun _ => h) h₃
    obtain ⟨tokens, f', q, ds'⟩ := s₂
    cases hp
    cases each_kept.symm.trans he
    suffices h : t = .named (if us.isEmpty then span else Span.merge span q) name us ∧
        s' = ⟨tokens, f', q, ds⟩ by
      obtain ⟨rfl, rfl⟩ := h
      exact ⟨(Leads.take hf').trans leads, _, .applied hus, rfl⟩
    cases us with
    | nil =>
      obtain ⟨rfl, rfl⟩ := pure_eq_done.mp hs
      exact ⟨rfl, rfl⟩
    | cons =>
      obtain ⟨stop, _, h₄, hs⟩ := bind_eq_done.mp hs
      obtain ⟨rfl, rfl⟩ := previousSpan_eq_done.mp h₄
      obtain ⟨rfl, rfl⟩ := pure_eq_done.mp hs
      exact ⟨rfl, rfl⟩
  · obtain ⟨rfl, rfl⟩ := pure_eq_done.mp hs
    exact ⟨.take hf, _, .name less paren, rfl⟩

theorem typeStep_sound (h : Sound TypeName kept type) : Sound TypeName kept (typeStep type) := by
  intro s t s' hs
  obtain ⟨k, _, hk, hs⟩ := bind_eq_done.mp hs
  obtain ⟨hk, rfl⟩ := peek_eq_done.mp hk
  rcases k with _ | k
  · exact absurd hs expected_ne_done
  cases k with
  | name n =>
    obtain ⟨⟨name, span⟩, _, h₁, hs⟩ := bind_eq_done.mp hs
    obtain ⟨p, ts, f, ds, rfl, rfl, hf⟩ := expectName_eq_done.mp h₁
    obtain ⟨b, _, h₂, hs⟩ := bind_eq_done.mp hs
    obtain ⟨hb, rfl⟩ := looksAt_eq_done.mp h₂
    by_cases hn : name = "fn" ∧ b = true
    · obtain ⟨rfl, rfl⟩ := hn
      exact funcType_sound h hs
    · have hn' : (name == "fn" && b) = false := by simpa using hn
      rw [hn'] at hs
      refine typeArgs_sound h hs hf fun hname hparen => hn ⟨hname, ?_⟩
      rw [← hb, place_mk, hparen, beq_self_eq_true]
  | punct q =>
    cases q with
    | leftBrace => exact structType_sound h hs
    | _ => exact absurd hs expected_ne_done
  | _ => exact absurd hs expected_ne_done

/-- **A written type that is read is one of the grammar.** -/
theorem typeFrom_sound : ∀ n, Sound TypeName kept (typeFrom n)
  | 0, _, _, _, hs => absurd hs exhausted_ne_done
  | n + 1, _, _, _, hs => typeStep_sound (typeFrom_sound n) hs

theorem typeExpr_sound : Sound TypeName kept typeExpr := fun hs => typeFrom_sound _ hs

end Types

end Parser

end Ascription
