import Ascription.Proofs.Parser.Sound

/-!
# Proofs/Parser/Sound/Expr — an expression that is read is a phrase

The parser of expressions takes the parser of those inside as a parameter; each part below is sound
if that one is.  An expression is read as far as it goes: neither a step nor an operator is next.
-/

namespace Ascription

open Phrase Grammar

/-- An expression with all that goes on with it. -/
def Settled (c : Place) (u : Phrase) (c' : Place) : Prop := Expression c u c' ∧ c'.settled = true

/-- An operand with all its steps. -/
def Stepped (c : Place) (u : Phrase) (c' : Place) : Prop := Operand c u c' ∧ c'.atStep = false

namespace Parser

variable {r : Registry} {expr : Parser Expr}

/-- **A type is read, then looked up.** -/
theorem type_sound : Sound TypeName (resolved r) (type r) := by
  intro s t s' hs
  obtain ⟨written, s₁, h₁, hs⟩ := bind_eq_done.mp hs
  obtain ⟨leads, u, hu, he⟩ := typeExpr_sound h₁
  obtain ⟨ht, rfl⟩ := judge_eq_done.mp hs
  obtain ⟨rfl, hds⟩ := kept_eq_ok.mp he
  exact ⟨leads, u, hu, resolved_eq_ok.mpr ⟨ht, hds⟩⟩

/-! ## Primaries -/

theorem literal_sound {k : TokenKind} {value : Literal}
    (hk : ∀ {p span ts}, Primary ⟨p, ⟨k, span⟩ :: ts⟩ (.literal span value) ⟨span, ts⟩)
    {s e s'} (hn : s.place.next = some k) (hs : literal value s = .done e s') :
    Read Primary (elaborate r) s e s' := by
  obtain ⟨⟨k', span⟩, _, h₁, hs⟩ := bind_eq_done.mp hs
  obtain ⟨p, ts, f, ds, rfl, rfl, hf⟩ := advance_eq_done.mp h₁
  obtain ⟨rfl, rfl⟩ := pure_eq_done.mp hs
  cases hn
  exact ⟨.take hf, _, hk, rfl⟩

theorem reference_sound {name : String} {span p : Span} {ts f ds e s'}
    (hs : reference r name span ⟨ts, f, span, ds⟩ = .done e s') (hf : ts = [] → f = none) :
    Read Primary (elaborate r) ⟨⟨.name name, span⟩ :: ts, f, p, ds⟩ e s' := by
  obtain ⟨b, _, h₁, hs⟩ := bind_eq_done.mp hs
  obtain ⟨rfl, less, h₂⟩ | ⟨rfl, less, rfl⟩ := accept_eq_done.mp h₁
  · obtain ⟨_, ts, _, _, ⟨⟩, rfl, hf'⟩ := expect_eq_done.mp h₂
    obtain ⟨t, s₂, h₃, hs⟩ := bind_eq_done.mp hs
    obtain ⟨leads, u, hu, he⟩ := type_sound h₃
    obtain ⟨stop, _, h₄, hs⟩ := bind_eq_done.mp hs
    obtain ⟨rfl, rfl⟩ := previousSpan_eq_done.mp h₄
    obtain ⟨s₃, _, h₅, hs⟩ := bind_eq_done.mp hs
    obtain ⟨rfl, rfl⟩ := state_eq_done.mp h₅
    obtain ⟨t', _, h₆, hs⟩ := bind_eq_done.mp hs
    obtain ⟨ht, rfl⟩ := judge_eq_done.mp h₆
    obtain ⟨rfl, rfl⟩ := pure_eq_done.mp hs
    obtain ⟨hr, hds⟩ := resolved_eq_ok.mp he
    exact ⟨(Leads.take hf').trans leads, _, .annotated hu,
      elaborate_annotated.mpr ⟨t, t', hr, hds ▸ ht, rfl, hds⟩⟩
  · obtain ⟨s₂, _, h₂, hs⟩ := bind_eq_done.mp hs
    obtain ⟨rfl, rfl⟩ := state_eq_done.mp h₂
    cases hd : ds.find? name with
    | none =>
      rw [hd] at hs
      exact absurd hs failForm_ne_done
    | some d =>
      rw [hd] at hs
      obtain ⟨rfl, rfl⟩ := pure_eq_done.mp hs
      exact ⟨.take hf, _, .name, elaborate_reference.mpr ⟨d, hd, rfl, rfl⟩⟩

section Parts

variable (h : Sound Settled (elaborate r) expr)

include h

theorem lambda_sound {start : Span} {params : List String} {s e s'}
    (hs : lambda expr start params s = .done e s') :
    Read (fun c u c' => ∃ v, Settled c v c' ∧ u = .lambda start params v) (elaborate r) s e s' := by
  obtain ⟨body, _, h₁, hs⟩ := bind_eq_done.mp hs
  obtain ⟨leads, u, hu, he⟩ := h h₁
  obtain ⟨rfl, rfl⟩ := pure_eq_done.mp hs
  exact ⟨leads, _, ⟨u, hu, rfl⟩, elaborate_lambda.mpr ⟨body, he, rfl⟩⟩

theorem listLiteral_sound : Sound Primary (elaborate r) (listLiteral expr) := by
  intro s e s' hs
  obtain ⟨start, _, h₁, hs⟩ := bind_eq_done.mp hs
  obtain ⟨p, ts, f, ds, rfl, rfl, hf⟩ := expect_eq_done.mp h₁
  obtain ⟨es, s₁, h₂, hs⟩ := bind_eq_done.mp hs
  obtain ⟨leads, us, ⟨p', span, ts', hus, hp⟩, he⟩ := items_sound (fun _ => h) h₂
  obtain ⟨⟨⟩, s₂, h₃, hs⟩ := bind_eq_done.mp hs
  obtain ⟨hr, rfl⟩ := checkElements_eq_done.mp h₃
  obtain ⟨stop, _, h₄, hs⟩ := bind_eq_done.mp hs
  obtain ⟨rfl, rfl⟩ := previousSpan_eq_done.mp h₄
  obtain ⟨rfl, rfl⟩ := pure_eq_done.mp hs
  obtain ⟨tokens, f', q, ds'⟩ := s₁
  cases hp
  exact ⟨(Leads.take hf).trans leads, _, .list (hus.imp fun _ _ _ hu => hu.1),
    elaborate_list.mpr ⟨es, elaborateAll_eq_each.trans he, hr, rfl⟩⟩

theorem fieldLiteral_sound (done : List (String × Expr)) :
    Sound Field (elaborateField r done) (fieldLiteral expr done) := by
  intro s x s' hs
  obtain ⟨⟨name, span⟩, _, h₁, hs⟩ := bind_eq_done.mp hs
  obtain ⟨p, ts, f, ds, rfl, rfl, -⟩ := expectName_eq_done.mp h₁
  cases hc : Entries.contains done name with
  | true =>
    simp only [hc, if_true] at hs
    exact absurd hs fail_ne_done
  | false =>
    simp only [hc, Bool.false_eq_true, if_false] at hs
    obtain ⟨span', _, h₂, hs⟩ := bind_eq_done.mp hs
    obtain ⟨_, ts, _, _, ⟨⟩, rfl, hf⟩ := expect_eq_done.mp h₂
    obtain ⟨value, s₁, h₃, hs⟩ := bind_eq_done.mp hs
    obtain ⟨leads, u, hu, he⟩ := h h₃
    obtain ⟨t, _, h₄, hs⟩ := bind_eq_done.mp hs
    obtain ⟨ht, rfl⟩ := typed_eq_done.mp h₄
    obtain ⟨rfl, rfl⟩ := pure_eq_done.mp hs
    exact ⟨(Leads.take hf).trans leads, _, .field hu.1,
      elaborateField_eq_ok.mpr ⟨hc, value, t, he, ht, rfl⟩⟩

theorem structLiteral_sound : Sound Primary (elaborate r) (structLiteral expr) := by
  intro s e s' hs
  obtain ⟨start, _, h₁, hs⟩ := bind_eq_done.mp hs
  obtain ⟨p, ts, f, ds, rfl, rfl, hf⟩ := expect_eq_done.mp h₁
  obtain ⟨fs, s₁, h₂, hs⟩ := bind_eq_done.mp hs
  obtain ⟨leads, us, ⟨p', span, ts', hus, hp⟩, he⟩ := items_sound (fieldLiteral_sound h) h₂
  obtain ⟨stop, _, h₃, hs⟩ := bind_eq_done.mp hs
  obtain ⟨rfl, rfl⟩ := previousSpan_eq_done.mp h₃
  obtain ⟨rfl, rfl⟩ := pure_eq_done.mp hs
  obtain ⟨tokens, f', q, ds'⟩ := s₁
  cases hp
  exact ⟨(Leads.take hf).trans leads, _, .struct hus,
    elaborate_struct.mpr ⟨fs, elaborateFields_eq_each.trans he, rfl⟩⟩

/-- **An innermost expression that is read is one of the grammar.** -/
theorem primary_sound : Sound Primary (elaborate r) (primary r expr) := by
  intro s e s' hs
  obtain ⟨k, _, h₀, hs⟩ := bind_eq_done.mp hs
  obtain ⟨hk, rfl⟩ := peek_eq_done.mp h₀
  rcases k with _ | k
  · exact absurd hs expected_ne_done
  cases k with
  | int n => exact literal_sound .int hk hs
  | float x => exact literal_sound .float hk hs
  | string t => exact literal_sound .string hk hs
  | name n =>
    obtain ⟨⟨name, span⟩, _, h₁, hs⟩ := bind_eq_done.mp hs
    obtain ⟨p, ts, f, ds, rfl, rfl, hf⟩ := expectName_eq_done.mp h₁
    exact reference_sound hs hf
  | punct q =>
    cases q with
    | pipe =>
      obtain ⟨start, _, h₁, hs⟩ := bind_eq_done.mp hs
      obtain ⟨p, ts, f, ds, rfl, rfl, hf⟩ := expect_eq_done.mp h₁
      obtain ⟨params, s₁, h₂, hs⟩ := bind_eq_done.mp hs
      obtain ⟨leads, us, ⟨p', span, ts', hus, hp⟩, he⟩ := items_sound (fun _ => expectName_sound) h₂
      obtain ⟨leads', _, ⟨u, hu, rfl⟩, he'⟩ := lambda_sound h hs
      obtain ⟨tokens, f', q, ds'⟩ := s₁
      cases hp
      cases each_kept.symm.trans he
      exact ⟨((Leads.take hf).trans leads).trans leads', _, .lambda hus hu.1 hu.2, he'⟩
    | doublePipe =>
      obtain ⟨start, _, h₁, hs⟩ := bind_eq_done.mp hs
      obtain ⟨p, ts, f, ds, rfl, rfl, hf⟩ := expect_eq_done.mp h₁
      obtain ⟨leads, _, ⟨u, hu, rfl⟩, he⟩ := lambda_sound h hs
      exact ⟨(Leads.take hf).trans leads, _, .thunk hu.1 hu.2, he⟩
    | leftParen =>
      obtain ⟨start, _, h₁, hs⟩ := bind_eq_done.mp hs
      obtain ⟨p, ts, f, ds, rfl, rfl, hf⟩ := expect_eq_done.mp h₁
      obtain ⟨inner, s₁, h₂, hs⟩ := bind_eq_done.mp hs
      obtain ⟨leads, u, hu, he⟩ := h h₂
      obtain ⟨stop, _, h₃, hs⟩ := bind_eq_done.mp hs
      obtain ⟨p', ts', f', ds', rfl, rfl, hf'⟩ := expect_eq_done.mp h₃
      obtain ⟨rfl, rfl⟩ := pure_eq_done.mp hs
      exact ⟨((Leads.take hf).trans leads).trans (.take hf'), u, .parens hu.1, he⟩
    | leftBracket => exact listLiteral_sound h hs
    | leftBrace => exact structLiteral_sound h hs
    | _ => exact absurd hs expected_ne_done

/-! ## Steps -/

/-- **A step that is read is one of the grammar**, behind the phrase of its target. -/
theorem member_sound {u : Phrase} {ds₀ : Declarations} {e : Expr} {s e' s'}
    (he : elaborate r u ds₀ = .ok (e, s.declarations))
    (hs : member r expr e s = .done e' s') :
    Read (Step u) (fun v _ => elaborate r v ds₀) s e' s' := by
  obtain ⟨dot, _, h₁, hs⟩ := bind_eq_done.mp hs
  obtain ⟨p, ts, f, ds, rfl, rfl, -⟩ := expect_eq_done.mp h₁
  obtain ⟨⟨name, span⟩, _, h₂, hs⟩ := bind_eq_done.mp hs
  obtain ⟨_, ts, _, _, ⟨⟩, rfl, hf⟩ := expectName_eq_done.mp h₂
  obtain ⟨b, _, h₃, hs⟩ := bind_eq_done.mp hs
  obtain ⟨-, rfl⟩ := looksAt_eq_done.mp h₃
  cases b with
  | true =>
    obtain ⟨_, _, -, hs⟩ := bind_eq_done.mp hs
    exact absurd hs failForm_ne_done
  | false =>
    obtain ⟨b, _, h₄, hs⟩ := bind_eq_done.mp hs
    obtain ⟨rfl, colon, h₅⟩ | ⟨rfl, -, rfl⟩ := accept_eq_done.mp h₄
    · obtain ⟨_, ts, _, _, ⟨⟩, rfl, hf⟩ := expect_eq_done.mp h₅
      obtain ⟨annotated, s₁, h₆, hs⟩ := bind_eq_done.mp hs
      obtain ⟨t, h₇, rfl⟩ := map_eq_done.mp h₆
      obtain ⟨leads, t', ht, het⟩ := type_sound h₇
      obtain ⟨hr, hds⟩ := resolved_eq_ok.mp het
      obtain ⟨b, _, h₈, hs⟩ := bind_eq_done.mp hs
      obtain ⟨hb, rfl⟩ := looksAt_eq_done.mp h₈
      cases b with
      | true =>
        obtain ⟨paren, _, h₉, hs⟩ := bind_eq_done.mp hs
        obtain ⟨p', ts', f', ds', rfl, rfl, hf'⟩ := expect_eq_done.mp h₉
        obtain ⟨args, s₂, h₁₀, hs⟩ := bind_eq_done.mp hs
        obtain ⟨leads', us, ⟨p'', span', ts'', hus, hp⟩, hes⟩ := items_sound (fun _ => h) h₁₀
        obtain ⟨stop, _, h₁₁, hs⟩ := bind_eq_done.mp hs
        obtain ⟨rfl, rfl⟩ := previousSpan_eq_done.mp h₁₁
        obtain ⟨rfl, rfl⟩ := pure_eq_done.mp hs
        obtain ⟨tokens, f'', q, ds''⟩ := s₂
        cases hp
        cases hds
        exact ⟨((Leads.take hf).trans leads).trans ((Leads.take hf').trans leads'), _,
          .call ht (hus.imp fun _ _ _ hu => hu.1),
          elaborate_call.mpr ⟨e, ds, t, args, he, hr, elaborateAll_eq_each.trans hes, rfl⟩⟩
      | false =>
        obtain ⟨t', hrule, rfl, rfl⟩ := access_eq_done.mp hs
        exact ⟨(Leads.take hf).trans leads, _, .annotated ht, elaborate_field.mpr ⟨e, some t, t',
          hds ▸ he, by rw [annotated, hr]; rfl, hrule, rfl⟩⟩
    · obtain ⟨ascribed, _, h₅, hs⟩ := bind_eq_done.mp hs
      obtain ⟨rfl, rfl⟩ := pure_eq_done.mp h₅
      obtain ⟨b, _, h₆, hs⟩ := bind_eq_done.mp hs
      obtain ⟨-, rfl⟩ := looksAt_eq_done.mp h₆
      obtain ⟨t', hrule, rfl, rfl⟩ := access_eq_done.mp hs
      exact ⟨.take hf, _, .field, elaborate_field.mpr ⟨e, none, t', he, rfl, hrule, rfl⟩⟩

theorem offset_sound {u : Phrase} {ds₀ : Declarations} {e : Expr} {s e' s'}
    (he : elaborate r u ds₀ = .ok (e, s.declarations)) (hs : offset expr e s = .done e' s') :
    Read (Step u) (fun v _ => elaborate r v ds₀) s e' s' := by
  obtain ⟨start, _, h₁, hs⟩ := bind_eq_done.mp hs
  obtain ⟨p, ts, f, ds, rfl, rfl, hf⟩ := expect_eq_done.mp h₁
  obtain ⟨key, s₁, h₂, hs⟩ := bind_eq_done.mp hs
  obtain ⟨leads, k, hk, hek⟩ := h h₂
  obtain ⟨stop, _, h₃, hs⟩ := bind_eq_done.mp hs
  obtain ⟨p', ts', f', ds', rfl, rfl, hf'⟩ := expect_eq_done.mp h₃
  obtain ⟨tt, _, h₄, hs⟩ := bind_eq_done.mp hs
  obtain ⟨htt, rfl⟩ := typed_eq_done.mp h₄
  obtain ⟨kt, _, h₅, hs⟩ := bind_eq_done.mp hs
  obtain ⟨hkt, rfl⟩ := typed_eq_done.mp h₅
  obtain ⟨t, _, h₆, hs⟩ := bind_eq_done.mp hs
  obtain ⟨hrule, rfl⟩ := judge_eq_done.mp h₆
  obtain ⟨rfl, rfl⟩ := pure_eq_done.mp hs
  exact ⟨((Leads.take hf).trans leads).trans (.take hf'), _, .offset hk.1,
    elaborate_offset.mpr ⟨e, ds, key, t, he, hek, offsetRule_eq_ok.mpr ⟨tt, kt, htt, hkt, hrule⟩,
      rfl⟩⟩

/-- The steps behind a target, as far as they go. -/
theorem stepsFrom_sound {ds₀ : Declarations} : ∀ n {u : Phrase} {e : Expr} {s e' s'},
    elaborate r u ds₀ = .ok (e, s.declarations) → stepsFrom r expr n e s = .done e' s' →
      Read (fun c v c' => Steps u c v c' ∧ c'.atStep = false) (fun v _ => elaborate r v ds₀) s e' s'
  | 0, _, _, _, _, _, _, hs => absurd hs exhausted_ne_done
  | n + 1, u, e, s, e', s', he, hs => by
      cases hstep : s.place.atStep with
      | true =>
        obtain ⟨k, _, h₀, hs⟩ := bind_eq_done.mp hs
        obtain ⟨hk, rfl⟩ := peek_eq_done.mp h₀
        suffices hstep : ∃ a s₁, Read (Step u) (fun v _ => elaborate r v ds₀) s a s₁ ∧
            stepsFrom r expr n a s₁ = .done e' s' by
          obtain ⟨a, s₁, ⟨leads, v, hv, hev⟩, hs⟩ := hstep
          obtain ⟨leads', w, ⟨hw, hend⟩, hew⟩ := stepsFrom_sound n hev hs
          exact ⟨leads.trans leads', w, ⟨.cons hv hw, hend⟩, hew⟩
        obtain hk' | hk' : s.place.next = some (.punct .dot) ∨
            s.place.next = some (.punct .leftBracket) := by
          simpa [Place.atStep] using hstep
        all_goals
          rw [hk'] at hk
          subst hk
          obtain ⟨a, s₁, ha, hs⟩ := bind_eq_done.mp hs
        · exact ⟨a, s₁, member_sound h he ha, hs⟩
        · exact ⟨a, s₁, offset_sound h he ha, hs⟩
      | false =>
        rw [stepsFrom_succ_of_not_atStep hstep] at hs
        cases hs
        exact ⟨.refl s, u, ⟨.nil, hstep⟩, he⟩

theorem steps_sound {ds₀ : Declarations} {u : Phrase} {e : Expr} {s e' s'}
    (he : elaborate r u ds₀ = .ok (e, s.declarations)) (hs : steps r expr e s = .done e' s') :
    Read (fun c v c' => Steps u c v c' ∧ c'.atStep = false)
      (fun v _ => elaborate r v ds₀) s e' s' :=
  stepsFrom_sound h _ he hs

/-! ## Operands and operators -/

theorem operandFrom_sound : ∀ n, Sound Stepped (elaborate r) (operandFrom r expr n)
  | 0, _, _, _, hs => absurd hs exhausted_ne_done
  | n + 1, s, e, s', hs => by
      obtain ⟨b, _, h₀, hs⟩ := bind_eq_done.mp hs
      obtain ⟨-, rfl⟩ := looksAt_eq_done.mp h₀
      cases b with
      | true =>
        obtain ⟨start, _, h₁, hs⟩ := bind_eq_done.mp hs
        obtain ⟨p, ts, f, ds, rfl, rfl, hf⟩ := expect_eq_done.mp h₁
        obtain ⟨a, s₁, h₂, hs⟩ := bind_eq_done.mp hs
        obtain ⟨leads, u, ⟨hu, hend⟩, he⟩ := operandFrom_sound n h₂
        obtain ⟨t, _, h₃, hs⟩ := bind_eq_done.mp hs
        obtain ⟨ht, rfl⟩ := typed_eq_done.mp h₃
        obtain ⟨⟨⟩, _, h₄, hs⟩ := bind_eq_done.mp hs
        obtain ⟨hrule, rfl⟩ := judge_eq_done.mp h₄
        obtain ⟨rfl, rfl⟩ := pure_eq_done.mp hs
        exact ⟨(Leads.take hf).trans leads, _, ⟨.negation hu, hend⟩,
          elaborate_negative.mpr ⟨a, he, negationRule_eq_ok.mpr ⟨t, ht, hrule⟩, rfl⟩⟩
      | false =>
        obtain ⟨a, s₁, h₁, hs⟩ := bind_eq_done.mp hs
        obtain ⟨leads, u, hu, he⟩ := primary_sound h h₁
        obtain ⟨leads', v, ⟨hv, hend⟩, he'⟩ := steps_sound h he hs
        exact ⟨leads.trans leads', v, ⟨.steps hu hv, hend⟩, he'⟩

theorem operand_sound : Sound Stepped (elaborate r) (operand r expr) :=
  fun hs => operandFrom_sound h _ hs

/-- The operators behind an operand, as far as they go. -/
theorem operatorsFrom_sound {ds₀ : Declarations} : ∀ n {u : Phrase} {e : Expr} {s e' s'},
    elaborate r u ds₀ = .ok (e, s.declarations) → s.place.atStep = false →
      operatorsFrom (operand r expr) n e s = .done e' s' →
      Read (fun c v c' => Operators u c v c' ∧ c'.settled = true) (fun v _ => elaborate r v ds₀)
        s e' s'
  | 0, _, _, _, _, _, _, _, hs => absurd hs exhausted_ne_done
  | n + 1, u, e, s, e', s', he, hend, hs => by
      obtain ⟨k, _, h₀, hs⟩ := bind_eq_done.mp hs
      obtain ⟨rfl, rfl⟩ := peek_eq_done.mp h₀
      cases hop : operator? s.place.next with
      | none =>
        simp only [hop] at hs
        obtain ⟨rfl, rfl⟩ := pure_eq_done.mp hs
        exact ⟨.refl s, u, ⟨.nil, by rw [Place.settled, Place.atOperator, hop, hend]; rfl⟩, he⟩
      | some op =>
        simp only [hop] at hs
        obtain ⟨⟨k, span⟩, _, h₁, hs⟩ := bind_eq_done.mp hs
        obtain ⟨p, ts, f, ds, rfl, rfl, hf⟩ := advance_eq_done.mp h₁
        obtain ⟨right, s₁, h₂, hs⟩ := bind_eq_done.mp hs
        obtain ⟨leads, v, ⟨hv, hend'⟩, hev⟩ := operand_sound h h₂
        obtain ⟨joined, _, h₃, hs⟩ := bind_eq_done.mp hs
        obtain ⟨hrule, rfl, rfl⟩ := join_eq_done.mp h₃
        obtain ⟨leads', w, ⟨hw, hend⟩, hew⟩ := operatorsFrom_sound n
          (elaborate_binary.mpr ⟨e, ds, right, he, hev, hrule, rfl⟩) hend' hs
        exact ⟨((Leads.take hf).trans leads).trans leads', w, ⟨.cons hop hv hw, hend⟩, hew⟩

/-! ## Expressions -/

omit h in
/-- A declaration goes before whatever expression follows it. -/
theorem declaration_sound {s : ParserState} {s₁ : ParserState}
    (hs : declaration r s = .done () s₁) (hb : s.place.atDeclaration = true) :
    Leads s s₁ ∧ ∀ {v c e ds}, Expression s₁.place v c →
      elaborate r v s₁.declarations = .ok (e, ds) →
        ∃ u, Expression s.place u c ∧ elaborate r u s.declarations = .ok (e, ds) := by
  obtain ⟨⟨_, _⟩, _, h₁, hs⟩ := bind_eq_done.mp hs
  obtain ⟨p, ts, f, ds, rfl, rfl, -⟩ := expectName_eq_done.mp h₁
  obtain rfl := atDeclaration_cons hb
  obtain ⟨⟨name, span⟩, _, h₂, hs⟩ := bind_eq_done.mp hs
  obtain ⟨_, ts, _, _, ⟨⟩, rfl, -⟩ := expectName_eq_done.mp h₂
  obtain ⟨colon, _, h₃, hs⟩ := bind_eq_done.mp hs
  obtain ⟨_, ts, _, _, ⟨⟩, rfl, hf⟩ := expect_eq_done.mp h₃
  obtain ⟨t, s₂, h₄, hs⟩ := bind_eq_done.mp hs
  obtain ⟨leads, u, hu, he⟩ := type_sound h₄
  obtain ⟨ht, hds⟩ := resolved_eq_ok.mp he
  obtain ⟨_, _, h₅, hs⟩ := bind_eq_done.mp hs
  obtain ⟨rfl, rfl⟩ := state_eq_done.mp h₅
  obtain ⟨ds', _, h₆, hs⟩ := bind_eq_done.mp hs
  obtain ⟨hrule, rfl⟩ := judge_eq_done.mp h₆
  cases hs
  obtain ⟨tokens, f', q, ds''⟩ := s₂
  cases hds
  exact ⟨((Leads.take hf).trans leads).trans ⟨rfl, id⟩, fun hv he =>
    ⟨_, .declaration hu hv, elaborate_declaration.mpr ⟨t, ds', ht, hrule, he⟩⟩⟩

theorem exprStep_sound : Sound Settled (elaborate r) (exprStep r expr) := by
  intro s e s' hs
  obtain ⟨b, _, h₀, hs⟩ := bind_eq_done.mp hs
  obtain ⟨hb, rfl⟩ := looksAtDeclaration_eq_done.mp h₀
  cases b with
  | true =>
    obtain ⟨⟨⟩, s₁, h₁, hs⟩ := bind_eq_done.mp hs
    obtain ⟨leads, hdecl⟩ := declaration_sound h₁ hb
    obtain ⟨leads', v, ⟨hv, hend⟩, he⟩ := h hs
    obtain ⟨u, hu, hv⟩ := hdecl hv he
    exact ⟨leads.trans leads', u, ⟨hu, hend⟩, hv⟩
  | false =>
    obtain ⟨first, s₁, h₁, hs⟩ := bind_eq_done.mp hs
    obtain ⟨leads, u, ⟨hu, hend⟩, he⟩ := operand_sound h h₁
    obtain ⟨leads', v, ⟨hv, hend'⟩, he'⟩ := operatorsFrom_sound h _ he hend hs
    exact ⟨leads.trans leads', v, ⟨.operation hb hu hv, hend'⟩, he'⟩

end Parts

/-- **An expression that is read is one of the grammar.** -/
theorem exprFrom_sound : ∀ n, Sound Settled (elaborate r) (exprFrom r n)
  | 0, _, _, _, hs => absurd hs exhausted_ne_done
  | n + 1, _, _, _, hs => exprStep_sound (exprFrom_sound n) hs

theorem expr_sound : Sound Settled (elaborate r) (Parser.expr r) := fun hs => exprFrom_sound _ hs

end Parser

end Ascription
