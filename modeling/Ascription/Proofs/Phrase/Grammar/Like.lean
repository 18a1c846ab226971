import Ascription.Proofs.Phrase.Grammar
import Ascription.Proofs.Phrase.Like
import Ascription.Proofs.Text.Renders
import Ascription.Proofs.Token.Literals

/-!
# Proofs/Phrase/Grammar/Like — the grammar does not see spans

    c ─── u ──▸ c'
    ║           ║          the same kinds of tokens at c and d: a phrase that is like u
    d ─── v ──▸ d'
-/

namespace Ascription

/-- Any two spans. -/
def Span.Any (_ _ : Span) : Prop := True

/-- **Tokens of one kind**, the literal they stand for in `L`. -/
inductive Token.Like (L : Literal → Prop) : Token → Token → Prop
  | mk {k s s'} (known : ∀ v, k.literal? = some v → L v) : Like L ⟨k, s⟩ ⟨k, s'⟩

/-- **Places with the same tokens to come**, but for their spans. -/
def Place.Like (L : Literal → Prop) (c d : Place) : Prop :=
  List.Forall₂ (Token.Like L) c.tokens d.tokens

variable {L : Literal → Prop} {c d : Place}

/-- A declaration starts with the word and a name. -/
theorem Place.atDeclaration_iff :
    c.atDeclaration = true ↔ ∃ n ks, c.kinds = .name "declare" :: .name n :: ks := by
  rw [atDeclaration]
  split
  case h_1 s n s' ts htokens => simp [kinds, htokens]
  case h_2 hother =>
    refine ⟨fun h => absurd h Bool.false_ne_true, ?_⟩
    rintro ⟨n, ks, hkinds⟩
    obtain ⟨p, s, ts, rfl, hks⟩ := kinds_eq_cons hkinds
    obtain ⟨s', ts, rfl, -⟩ := kinds_cons hks
    exact absurd rfl (hother s n s' ts)

namespace Place.Like

/-- The same first tokens. -/
theorem cons {p s : Span} {k : TokenKind} {ts : List Token} (h : Place.Like L ⟨p, ⟨k, s⟩ :: ts⟩ d) :
    ∃ q s' us, d = ⟨q, ⟨k, s'⟩ :: us⟩ ∧ (∀ v, k.literal? = some v → L v) ∧
      Place.Like L ⟨s, ts⟩ ⟨s', us⟩ := by
  obtain ⟨q, us⟩ := d
  obtain ⟨⟩ | ⟨⟨known⟩, rest⟩ := h
  exact ⟨q, _, _, rfl, known, rest⟩

theorem kinds_eq (h : c.Like L d) : c.kinds = d.kinds := by
  obtain ⟨p, ts⟩ := c
  obtain ⟨q, us⟩ := d
  change List.Forall₂ _ ts us at h
  change ts.map Token.kind = us.map Token.kind
  induction h with
  | nil => rfl
  | cons h _ ih =>
    obtain ⟨known⟩ := h
    rw [List.map_cons, List.map_cons, ih]

/-- Places with the same kinds of tokens, all of their literals in `L`. -/
theorem of_kinds (h : c.kinds = d.kinds) (hL : ∀ k ∈ c.kinds, ∀ v, k.literal? = some v → L v) :
    c.Like L d := by
  obtain ⟨p, ts⟩ := c
  obtain ⟨q, us⟩ := d
  change List.Forall₂ _ ts us
  change ts.map Token.kind = us.map Token.kind at h
  change ∀ k ∈ ts.map Token.kind, _ at hL
  induction ts generalizing us with
  | nil =>
    obtain rfl := List.map_eq_nil_iff.mp h.symm
    exact .nil
  | cons t ts ih =>
    obtain ⟨⟨k, s'⟩, us, rfl, hk, hus⟩ := List.map_eq_cons_iff.mp h.symm
    obtain ⟨k, s⟩ := t
    cases hk
    obtain ⟨hhead, htail⟩ := List.forall_mem_cons.mp hL
    exact .cons (.mk hhead) (ih us hus.symm htail)

theorem symm (h : c.Like L d) : d.Like L c :=
  List.Forall₂.flip (h.imp fun _ _ ⟨known⟩ => ⟨known⟩)

theorem next_eq (h : c.Like L d) : c.next = d.next := by
  rw [Place.next_eq, Place.next_eq, h.kinds_eq]

theorem settled_eq (h : c.Like L d) : c.settled = d.settled := by
  rw [Place.settled, Place.settled, Place.atOperator, Place.atOperator, Place.atStep, Place.atStep,
    h.next_eq]

theorem atDeclaration_eq (h : c.Like L d) : c.atDeclaration = d.atDeclaration := by
  rw [Bool.eq_iff_iff, atDeclaration_iff, atDeclaration_iff, h.kinds_eq]

end Place.Like

namespace Grammar

open Phrase (Like)

theorem Name.like {c : Place} {x c'} (h : Name c x c') (hc : c.Like L d) :
    ∃ y d', Name d y d' ∧ c'.Like L d' ∧ y.1 = x.1 := by
  cases h
  obtain ⟨_, _, _, rfl, -, hrest⟩ := hc.cons
  exact ⟨_, _, .name, hrest, rfl⟩

theorem Listed.like_names : ∀ {c xs c'}, Listed Name c xs c' → ∀ {d : Place}, c.Like L d →
    ∃ ys d', Listed Name d ys d' ∧ c'.Like L d' ∧ ys.map Prod.fst = xs.map Prod.fst
  | _, _, _, .none, _, hc => ⟨[], _, .none, hc, rfl⟩
  | _, _, _, .one item, _, hc => by
    obtain ⟨y, d', hy, hd', hname⟩ := item.like hc
    exact ⟨[y], d', .one hy, hd', by simp [hname]⟩
  | _, _, _, .more item rest, _, hc => by
    obtain ⟨y, d', hy, hd', hname⟩ := item.like hc
    obtain ⟨_, _, _, rfl, -, hd'⟩ := hd'.cons
    obtain ⟨ys, d'', hys, hd'', hnames⟩ := rest.like_names hd'
    exact ⟨y :: ys, d'', .more hy hys, hd'', by simp [hname, hnames]⟩

mutual

theorem TypeName.like : ∀ {c t c'}, TypeName c t c' → ∀ {d : Place}, c.Like L d →
    ∃ t' d', TypeName d t' d' ∧ c'.Like L d' ∧ t.Like Span.Any t'
  | _, _, _, .name less paren, _, hc => by
    obtain ⟨_, _, _, rfl, -, hc⟩ := hc.cons
    exact ⟨_, _, .name (hc.next_eq ▸ less) (hc.next_eq ▸ paren), hc, .named trivial .nil⟩
  | _, _, _, .applied list, _, hc => by
    obtain ⟨_, _, _, rfl, -, hc⟩ := hc.cons
    obtain ⟨_, _, _, ⟨⟩, -, hc⟩ := hc.cons
    obtain ⟨ws, d', hws, hd', hlike⟩ := list.like_types hc
    obtain ⟨_, _, _, rfl, -, hd'⟩ := hd'.cons
    exact ⟨_, _, .applied hws, hd', .named trivial hlike⟩
  | _, _, _, .func list returns, _, hc => by
    obtain ⟨_, _, _, rfl, -, hc⟩ := hc.cons
    obtain ⟨_, _, _, ⟨⟩, -, hc⟩ := hc.cons
    obtain ⟨ws, d', hws, hd', hlike⟩ := list.like_types hc
    obtain ⟨_, _, _, rfl, -, hd'⟩ := hd'.cons
    obtain ⟨_, _, _, ⟨⟩, -, hd'⟩ := hd'.cons
    obtain ⟨w, d'', hw, hd'', hresult⟩ := returns.like hd'
    exact ⟨_, _, .func hws hw, hd'', .func trivial hlike hresult⟩
  | _, _, _, .struct list, _, hc => by
    obtain ⟨_, _, _, rfl, -, hc⟩ := hc.cons
    obtain ⟨fs, d', hfs, hd', hlike⟩ := list.like_fields hc
    obtain ⟨_, _, _, rfl, -, hd'⟩ := hd'.cons
    exact ⟨_, _, .struct hfs, hd', .struct trivial hlike⟩

theorem TypeField.like : ∀ {c x c'}, TypeField c x c' → ∀ {d : Place}, c.Like L d →
    ∃ y d', TypeField d y d' ∧ c'.Like L d' ∧ y.1 = x.1 ∧
      Prod.RProd (TypeExpr.Like Span.Any) Span.Any x.2 y.2
  | _, _, _, .field type, _, hc => by
    obtain ⟨_, _, _, rfl, -, hc⟩ := hc.cons
    obtain ⟨_, _, _, ⟨⟩, -, hc⟩ := hc.cons
    obtain ⟨w, d', hw, hd', hlike⟩ := type.like hc
    exact ⟨_, _, .field hw, hd', rfl, .intro hlike trivial⟩

theorem Listed.like_types : ∀ {c ts c'}, Listed TypeName c ts c' → ∀ {d : Place}, c.Like L d →
    ∃ ts' d', Listed TypeName d ts' d' ∧ c'.Like L d' ∧
      List.Forall₂ (TypeExpr.Like Span.Any) ts ts'
  | _, _, _, .none, _, hc => ⟨[], _, .none, hc, .nil⟩
  | _, _, _, .one item, _, hc => by
    obtain ⟨w, d', hw, hd', hlike⟩ := item.like hc
    exact ⟨[w], d', .one hw, hd', .cons hlike .nil⟩
  | _, _, _, .more item rest, _, hc => by
    obtain ⟨w, d', hw, hd', hlike⟩ := item.like hc
    obtain ⟨_, _, _, rfl, -, hd'⟩ := hd'.cons
    obtain ⟨ws, d'', hws, hd'', hlikes⟩ := rest.like_types hd'
    exact ⟨w :: ws, d'', .more hw hws, hd'', .cons hlike hlikes⟩

theorem Listed.like_fields : ∀ {c fs c'}, Listed TypeField c fs c' → ∀ {d : Place}, c.Like L d →
    ∃ fs' d', Listed TypeField d fs' d' ∧ c'.Like L d' ∧
      Entries.Related (Prod.RProd (TypeExpr.Like Span.Any) Span.Any) fs fs'
  | _, _, _, .none, _, hc => ⟨[], _, .none, hc, .nil⟩
  | _, _, _, .one item, _, hc => by
    obtain ⟨⟨n, y⟩, d', hy, hd', ⟨⟩, hlike⟩ := item.like hc
    exact ⟨[(_, y)], d', .one hy, hd', .cons hlike .nil⟩
  | _, _, _, .more item rest, _, hc => by
    obtain ⟨⟨n, y⟩, d', hy, hd', ⟨⟩, hlike⟩ := item.like hc
    obtain ⟨_, _, _, rfl, -, hd'⟩ := hd'.cons
    obtain ⟨ys, d'', hys, hd'', hlikes⟩ := rest.like_fields hd'
    exact ⟨(_, y) :: ys, d'', .more hy hys, hd'', .cons hlike hlikes⟩

end

mutual

/-- **The grammar does not see spans**: the same kinds of tokens derive a phrase that is alike. -/
theorem Expression.like : ∀ {c u c'}, Expression c u c' → ∀ {d : Place}, c.Like L d →
    ∃ v d', Expression d v d' ∧ c'.Like L d' ∧ Like Span.Any L u v
  | _, _, _, .declaration type body, _, hc => by
    obtain ⟨_, _, _, rfl, -, hc⟩ := hc.cons
    obtain ⟨_, _, _, ⟨⟩, -, hc⟩ := hc.cons
    obtain ⟨_, _, _, ⟨⟩, -, hc⟩ := hc.cons
    obtain ⟨w, d', hw, hd', htype⟩ := type.like hc
    obtain ⟨v, d'', hv, hd'', hbody⟩ := body.like hd'
    exact ⟨_, _, .declaration hw hv, hd'', .declaration trivial htype hbody⟩
  | _, _, _, .operation start first others, _, hc => by
    obtain ⟨v, d', hv, hd', hfirst⟩ := first.like hc
    obtain ⟨v', d'', hv', hd'', hothers⟩ := others.like hd' hfirst
    exact ⟨_, _, .operation (hc.atDeclaration_eq ▸ start) hv hv', hd'', hothers⟩
termination_by structural _ _ _ h => h

theorem Operators.like : ∀ {left c u c'}, Operators left c u c' → ∀ {d : Place} {left' : Phrase},
    c.Like L d → Like Span.Any L left left' →
    ∃ v d', Operators left' d v d' ∧ c'.Like L d' ∧ Like Span.Any L u v
  | _, _, _, _, .nil, _, _, hc, hleft => ⟨_, _, .nil, hc, hleft⟩
  | _, _, _, _, .cons operator operand others, _, _, hc, hleft => by
    obtain ⟨_, _, _, rfl, -, hc⟩ := hc.cons
    obtain ⟨v, d', hv, hd', hright⟩ := operand.like hc
    obtain ⟨v', d'', hv', hd'', hothers⟩ := others.like hd' (.binary hleft hright)
    exact ⟨_, _, .cons operator hv hv', hd'', hothers⟩
termination_by structural _ _ _ _ h => h

theorem Operand.like : ∀ {c u c'}, Operand c u c' → ∀ {d : Place}, c.Like L d →
    ∃ v d', Operand d v d' ∧ c'.Like L d' ∧ Like Span.Any L u v
  | _, _, _, .negation operand, _, hc => by
    obtain ⟨_, _, _, rfl, -, hc⟩ := hc.cons
    obtain ⟨v, d', hv, hd', hlike⟩ := operand.like hc
    exact ⟨_, _, .negation hv, hd', .negative trivial hlike⟩
  | _, _, _, .steps primary steps, _, hc => by
    obtain ⟨v, d', hv, hd', hlike⟩ := primary.like hc
    obtain ⟨v', d'', hv', hd'', hsteps⟩ := steps.like hd' hlike
    exact ⟨_, _, .steps hv hv', hd'', hsteps⟩
termination_by structural _ _ _ h => h

theorem Steps.like : ∀ {target c u c'}, Steps target c u c' → ∀ {d : Place} {target' : Phrase},
    c.Like L d → Like Span.Any L target target' →
    ∃ v d', Steps target' d v d' ∧ c'.Like L d' ∧ Like Span.Any L u v
  | _, _, _, _, .nil, _, _, hc, htarget => ⟨_, _, .nil, hc, htarget⟩
  | _, _, _, _, .cons step others, _, _, hc, htarget => by
    obtain ⟨v, d', hv, hd', hstep⟩ := step.like hc htarget
    obtain ⟨v', d'', hv', hd'', hothers⟩ := others.like hd' hstep
    exact ⟨_, _, .cons hv hv', hd'', hothers⟩
termination_by structural _ _ _ _ h => h

theorem Step.like : ∀ {target c u c'}, Step target c u c' → ∀ {d : Place} {target' : Phrase},
    c.Like L d → Like Span.Any L target target' →
    ∃ v d', Step target' d v d' ∧ c'.Like L d' ∧ Like Span.Any L u v
  | _, _, _, _, .field, _, _, hc, htarget => by
    obtain ⟨_, _, _, rfl, -, hc⟩ := hc.cons
    obtain ⟨_, _, _, ⟨⟩, -, hc⟩ := hc.cons
    exact ⟨_, _, .field, hc, .field htarget trivial .none trivial⟩
  | _, _, _, _, .annotated type, _, _, hc, htarget => by
    obtain ⟨_, _, _, rfl, -, hc⟩ := hc.cons
    obtain ⟨_, _, _, ⟨⟩, -, hc⟩ := hc.cons
    obtain ⟨_, _, _, ⟨⟩, -, hc⟩ := hc.cons
    obtain ⟨w, d', hw, hd', htype⟩ := type.like hc
    exact ⟨_, _, .annotated hw, hd', .field htarget trivial (.some htype) trivial⟩
  | _, _, _, _, .call type list, _, _, hc, htarget => by
    obtain ⟨_, _, _, rfl, -, hc⟩ := hc.cons
    obtain ⟨_, _, _, ⟨⟩, -, hc⟩ := hc.cons
    obtain ⟨_, _, _, ⟨⟩, -, hc⟩ := hc.cons
    obtain ⟨w, d', hw, hd', htype⟩ := type.like hc
    obtain ⟨_, _, _, rfl, -, hd'⟩ := hd'.cons
    obtain ⟨vs, d'', hvs, hd'', hargs⟩ := list.like_items hd'
    obtain ⟨_, _, _, rfl, -, hd''⟩ := hd''.cons
    exact ⟨_, _, .call hw hvs, hd'', .call htarget htype hargs trivial⟩
  | _, _, _, _, .offset index, _, _, hc, htarget => by
    obtain ⟨_, _, _, rfl, -, hc⟩ := hc.cons
    obtain ⟨v, d', hv, hd', hkey⟩ := index.like hc
    obtain ⟨_, _, _, rfl, -, hd'⟩ := hd'.cons
    exact ⟨_, _, .offset hv, hd', .offset htarget hkey trivial⟩
termination_by structural _ _ _ _ h => h

theorem Primary.like : ∀ {c u c'}, Primary c u c' → ∀ {d : Place}, c.Like L d →
    ∃ v d', Primary d v d' ∧ c'.Like L d' ∧ Like Span.Any L u v
  | _, _, _, .int, _, hc => by
    obtain ⟨_, _, _, rfl, known, hc⟩ := hc.cons
    exact ⟨_, _, .int, hc, .literal trivial (known _ rfl)⟩
  | _, _, _, .float, _, hc => by
    obtain ⟨_, _, _, rfl, known, hc⟩ := hc.cons
    exact ⟨_, _, .float, hc, .literal trivial (known _ rfl)⟩
  | _, _, _, .string, _, hc => by
    obtain ⟨_, _, _, rfl, known, hc⟩ := hc.cons
    exact ⟨_, _, .string, hc, .literal trivial (known _ rfl)⟩
  | _, _, _, .name, _, hc => by
    obtain ⟨_, _, _, rfl, -, hc⟩ := hc.cons
    exact ⟨_, _, .name, hc, .reference trivial .none⟩
  | _, _, _, .annotated type, _, hc => by
    obtain ⟨_, _, _, rfl, -, hc⟩ := hc.cons
    obtain ⟨_, _, _, ⟨⟩, -, hc⟩ := hc.cons
    obtain ⟨w, d', hw, hd', htype⟩ := type.like hc
    exact ⟨_, _, .annotated hw, hd', .reference trivial (.some htype)⟩
  | _, _, _, .lambda list body greedy, _, hc => by
    obtain ⟨_, _, _, rfl, -, hc⟩ := hc.cons
    obtain ⟨ys, d', hys, hd', hnames⟩ := list.like_names hc
    obtain ⟨_, _, _, rfl, -, hd'⟩ := hd'.cons
    obtain ⟨v, d'', hv, hd'', hbody⟩ := body.like hd'
    exact ⟨_, _, .lambda hys hv (hd''.settled_eq ▸ greedy), hd'', hnames ▸ .lambda trivial hbody⟩
  | _, _, _, .thunk body greedy, _, hc => by
    obtain ⟨_, _, _, rfl, -, hc⟩ := hc.cons
    obtain ⟨v, d', hv, hd', hbody⟩ := body.like hc
    exact ⟨_, _, .thunk hv (hd'.settled_eq ▸ greedy), hd', .lambda trivial hbody⟩
  | _, _, _, .parens inner, _, hc => by
    obtain ⟨_, _, _, rfl, -, hc⟩ := hc.cons
    obtain ⟨v, d', hv, hd', hinner⟩ := inner.like hc
    obtain ⟨_, _, _, rfl, -, hd'⟩ := hd'.cons
    exact ⟨_, _, .parens hv, hd', hinner⟩
  | _, _, _, .list list, _, hc => by
    obtain ⟨_, _, _, rfl, -, hc⟩ := hc.cons
    obtain ⟨vs, d', hvs, hd', hitems⟩ := list.like_items hc
    obtain ⟨_, _, _, rfl, -, hd'⟩ := hd'.cons
    exact ⟨_, _, .list hvs, hd', .list trivial hitems⟩
  | _, _, _, .struct list, _, hc => by
    obtain ⟨_, _, _, rfl, -, hc⟩ := hc.cons
    obtain ⟨vs, d', hvs, hd', hfields⟩ := list.like_entries hc
    obtain ⟨_, _, _, rfl, -, hd'⟩ := hd'.cons
    exact ⟨_, _, .struct hvs, hd', .struct trivial hfields⟩
termination_by structural _ _ _ h => h

theorem Field.like : ∀ {c x c'}, Field c x c' → ∀ {d : Place}, c.Like L d →
    ∃ y d', Field d y d' ∧ c'.Like L d' ∧ y.1 = x.1 ∧
      Prod.RProd Span.Any (Like Span.Any L) x.2 y.2
  | _, _, _, .field value, _, hc => by
    obtain ⟨_, _, _, rfl, -, hc⟩ := hc.cons
    obtain ⟨_, _, _, ⟨⟩, -, hc⟩ := hc.cons
    obtain ⟨v, d', hv, hd', hlike⟩ := value.like hc
    exact ⟨_, _, .field hv, hd', rfl, .intro trivial hlike⟩
termination_by structural _ _ _ h => h

theorem Listed.like_items : ∀ {c us c'}, Listed Expression c us c' → ∀ {d : Place}, c.Like L d →
    ∃ vs d', Listed Expression d vs d' ∧ c'.Like L d' ∧ List.Forall₂ (Like Span.Any L) us vs
  | _, _, _, .none, _, hc => ⟨[], _, .none, hc, .nil⟩
  | _, _, _, .one item, _, hc => by
    obtain ⟨v, d', hv, hd', hlike⟩ := item.like hc
    exact ⟨[v], d', .one hv, hd', .cons hlike .nil⟩
  | _, _, _, .more item rest, _, hc => by
    obtain ⟨v, d', hv, hd', hlike⟩ := item.like hc
    obtain ⟨_, _, _, rfl, -, hd'⟩ := hd'.cons
    obtain ⟨vs, d'', hvs, hd'', hlikes⟩ := rest.like_items hd'
    exact ⟨v :: vs, d'', .more hv hvs, hd'', .cons hlike hlikes⟩
termination_by structural _ _ _ h => h

theorem Listed.like_entries : ∀ {c fs c'}, Listed Field c fs c' → ∀ {d : Place}, c.Like L d →
    ∃ fs' d', Listed Field d fs' d' ∧ c'.Like L d' ∧
      Entries.Related (Prod.RProd Span.Any (Like Span.Any L)) fs fs'
  | _, _, _, .none, _, hc => ⟨[], _, .none, hc, .nil⟩
  | _, _, _, .one item, _, hc => by
    obtain ⟨⟨n, y⟩, d', hy, hd', ⟨⟩, hlike⟩ := item.like hc
    exact ⟨[(_, y)], d', .one hy, hd', .cons hlike .nil⟩
  | _, _, _, .more item rest, _, hc => by
    obtain ⟨⟨n, y⟩, d', hy, hd', ⟨⟩, hlike⟩ := item.like hc
    obtain ⟨_, _, _, rfl, -, hd'⟩ := hd'.cons
    obtain ⟨ys, d'', hys, hd'', hlikes⟩ := rest.like_entries hd'
    exact ⟨(_, y) :: ys, d'', .more hy hys, hd'', .cons hlike hlikes⟩
termination_by structural _ _ _ h => h

end

end Grammar

end Ascription
