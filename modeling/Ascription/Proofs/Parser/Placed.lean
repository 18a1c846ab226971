import Ascription.Proofs.Expr.Decidable
import Ascription.Proofs.Parser.TwoPass
import Ascription.Proofs.Phrase.Placed
import Ascription.Proofs.Token.Spans

/-!
# Proofs/Parser/Placed — the nodes of a text stand where their tokens stand

    tokens in order ──▸ places in order ──▸ phrases between places ──▸ nodes in place

Each production takes tokens from a place on and leaves a later place.  What it derives is laid out
between the end of the token before it and the end of the last token it took; parentheses and
declarations take tokens and leave the tree as it is.
-/

namespace Ascription

namespace Place

/-- **A place from which reading can go on**: the tokens to come are tokens of the text, and stand
behind what has been read. -/
structure Ready (tokens : List Token) (c : Place) : Prop where
  inOrder : InOrder c.previous.stop c.tokens
  known : ∀ t ∈ c.tokens, t ∈ tokens

/-- **Reading from one place to another.** -/
structure Reached (tokens : List Token) (c c' : Place) : Prop where
  ready : Ready tokens c'
  le : c.previous.stop ≤ c'.previous.stop

/-- **Reading at least one token**, the last of them being the one before the new place. -/
structure Ahead (tokens : List Token) (c c' : Place) : Prop where
  ready : Ready tokens c'
  stretch : c'.previous.Stretch tokens
  behind : c.previous.stop ≤ c'.previous.start

variable {tokens : List Token} {c c' c'' : Place}

/-- Reading one token. -/
theorem Ready.next {p : Span} {t : Token} {ts : List Token} (h : Ready tokens ⟨p, t :: ts⟩) :
    Ahead tokens ⟨p, t :: ts⟩ ⟨t.span, ts⟩ :=
  have hmem := List.forall_mem_cons.mp h.known
  ⟨⟨h.inOrder.2.2, hmem.2⟩, .token hmem.1 h.inOrder.2.1, h.inOrder.1⟩

theorem Ahead.reached (h : Ahead tokens c c') : Reached tokens c c' :=
  ⟨h.ready, le_trans h.behind (le_of_lt h.stretch.nonempty)⟩

theorem Reached.refl (h : Ready tokens c) : Reached tokens c c := ⟨h, le_refl _⟩

theorem Reached.trans (h : Reached tokens c c') (h' : Reached tokens c' c'') :
    Reached tokens c c'' := ⟨h'.ready, le_trans h.le h'.le⟩

theorem Reached.ahead (h : Reached tokens c c') (h' : Ahead tokens c' c'') :
    Ahead tokens c c'' := ⟨h'.ready, h'.stretch, le_trans h.le h'.behind⟩

theorem Ahead.trans (h : Ahead tokens c c') (h' : Ahead tokens c' c'') : Ahead tokens c c'' :=
  h.reached.ahead h'

end Place

namespace Grammar

open Place

variable {tokens : List Token}

/-! ## Names and types -/

theorem Name.ahead {c n c'} (h : Name c n c') (hc : Ready tokens c) : Ahead tokens c c' := by
  cases h
  exact hc.next

theorem Listed.reached {α : Type} {Item : Place → α → Place → Prop}
    (hitem : ∀ {c x c'}, Item c x c' → Ready tokens c → Ahead tokens c c') {c xs c'}
    (h : Listed Item c xs c') (hc : Ready tokens c) : Reached tokens c c' := by
  induction h with
  | none => exact .refl hc
  | one item => exact (hitem item hc).reached
  | more item _ ih =>
    have hx := hitem item hc
    have hcomma := hx.trans hx.ready.next
    exact hcomma.reached.trans (ih hcomma.ready)

mutual

theorem TypeName.ahead : ∀ {c t c'}, TypeName c t c' → Ready tokens c → Ahead tokens c c'
  | _, _, _, .name _ _, hc => hc.next
  | _, _, _, .applied list, hc => by
    have hless := hc.next.trans hc.next.ready.next
    have hargs := list.reached_types hless.ready
    exact (hless.reached.trans hargs).ahead hargs.ready.next
  | _, _, _, .func list returns, hc => by
    have hparen := hc.next.trans hc.next.ready.next
    have hparams := list.reached_types hparen.ready
    have hclose := hparams.ready.next
    have harrow := hclose.trans hclose.ready.next
    exact ((hparen.reached.trans hparams).ahead harrow).trans (returns.ahead harrow.ready)
  | _, _, _, .struct list, hc => by
    have hfields := list.reached_fields hc.next.ready
    exact (hc.next.reached.trans hfields).ahead hfields.ready.next
termination_by structural _ _ _ h => h

theorem TypeField.ahead : ∀ {c x c'}, TypeField c x c' → Ready tokens c → Ahead tokens c c'
  | _, _, _, .field type, hc => by
    have hcolon := hc.next.trans hc.next.ready.next
    exact hcolon.trans (type.ahead hcolon.ready)
termination_by structural _ _ _ h => h

theorem Listed.reached_types : ∀ {c ts c'}, Listed TypeName c ts c' → Ready tokens c →
    Reached tokens c c'
  | _, _, _, .none, hc => .refl hc
  | _, _, _, .one item, hc => (item.ahead hc).reached
  | _, _, _, .more item rest, hc => by
    have hx := item.ahead hc
    have hcomma := hx.trans hx.ready.next
    exact hcomma.reached.trans (rest.reached_types hcomma.ready)
termination_by structural _ _ _ h => h

theorem Listed.reached_fields : ∀ {c xs c'}, Listed TypeField c xs c' → Ready tokens c →
    Reached tokens c c'
  | _, _, _, .none, hc => .refl hc
  | _, _, _, .one item, hc => (item.ahead hc).reached
  | _, _, _, .more item rest, hc => by
    have hx := item.ahead hc
    have hcomma := hx.trans hx.ready.next
    exact hcomma.reached.trans (rest.reached_fields hcomma.ready)
termination_by structural _ _ _ h => h

end

/-! ## Expressions -/

variable {r : Registry}

mutual

theorem Expression.read : ∀ {c u c'}, Expression c u c' → Ready tokens c →
    Reached tokens c c' ∧ u.Laid r tokens c.previous.stop c'.previous.stop
  | _, _, _, .declaration type body, hc => by
    have hname := hc.next.trans hc.next.ready.next
    have hcolon := hname.trans hname.ready.next
    have htype := hcolon.trans (type.ahead hcolon.ready)
    obtain ⟨hbody, hlaid⟩ := body.read htype.ready
    exact ⟨htype.reached.trans hbody,
      Phrase.laid_declaration (hlaid.mono htype.reached.le (le_refl _))⟩
  | _, _, _, .operation _ first others, hc => by
    obtain ⟨hfirst, hlaid⟩ := first.read hc
    obtain ⟨hothers, hlaid⟩ := others.read hfirst.ready hlaid
    exact ⟨hfirst.trans hothers, hlaid⟩
termination_by structural _ _ _ h => h

theorem Operators.read : ∀ {left c u c'}, Operators left c u c' → Ready tokens c →
    ∀ {lo}, left.Laid r tokens lo c.previous.stop →
      Reached tokens c c' ∧ u.Laid r tokens lo c'.previous.stop
  | _, _, _, _, .nil, hc, _, hleft => ⟨.refl hc, hleft⟩
  | _, _, _, _, .cons _ operand others, hc, _, hleft => by
    have hoperator := hc.next
    obtain ⟨hoperand, hright⟩ := operand.read hoperator.ready
    obtain ⟨hothers, hlaid⟩ :=
      others.read hoperand.ready (Phrase.laid_binary hleft hright hoperator.reached.le)
    exact ⟨(hoperator.reached.trans hoperand).trans hothers, hlaid⟩
termination_by structural _ _ _ _ h => h

theorem Operand.read : ∀ {c u c'}, Operand c u c' → Ready tokens c →
    Reached tokens c c' ∧ u.Laid r tokens c.previous.stop c'.previous.stop
  | _, _, _, .negation operand, hc => by
    have hminus := hc.next
    obtain ⟨hoperand, hlaid⟩ := operand.read hminus.ready
    exact ⟨hminus.reached.trans hoperand,
      (Phrase.laid_negative hminus.stretch hlaid).mono hminus.behind (le_refl _)⟩
  | _, _, _, .steps primary steps, hc => by
    obtain ⟨hprimary, hlaid⟩ := primary.read hc
    obtain ⟨hsteps, hlaid⟩ := steps.read hprimary.ready hlaid
    exact ⟨hprimary.trans hsteps, hlaid⟩
termination_by structural _ _ _ h => h

theorem Steps.read : ∀ {target c u c'}, Steps target c u c' → Ready tokens c →
    ∀ {lo}, target.Laid r tokens lo c.previous.stop →
      Reached tokens c c' ∧ u.Laid r tokens lo c'.previous.stop
  | _, _, _, _, .nil, hc, _, htarget => ⟨.refl hc, htarget⟩
  | _, _, _, _, .cons step others, hc, _, htarget => by
    obtain ⟨hstep, hlaid⟩ := step.read hc htarget
    obtain ⟨hothers, hlaid⟩ := others.read hstep.ready hlaid
    exact ⟨hstep.trans hothers, hlaid⟩
termination_by structural _ _ _ _ h => h

theorem Step.read : ∀ {target c u c'}, Step target c u c' → Ready tokens c →
    ∀ {lo}, target.Laid r tokens lo c.previous.stop →
      Reached tokens c c' ∧ u.Laid r tokens lo c'.previous.stop
  | _, _, _, _, .field, hc, _, htarget => by
    have hname := hc.next.trans hc.next.ready.next
    exact ⟨hname.reached, Phrase.laid_field htarget hname.stretch hname.behind⟩
  | _, _, _, _, .annotated type, hc, _, htarget => by
    have hname := hc.next.trans hc.next.ready.next
    have hcolon := hname.trans hname.ready.next
    have htype := hcolon.trans (type.ahead hcolon.ready)
    exact ⟨htype.reached, Phrase.laid_field htarget htype.stretch htype.behind⟩
  | _, _, _, _, .call type list, hc, _, htarget => by
    have hname := hc.next.trans hc.next.ready.next
    have hcolon := hname.trans hname.ready.next
    have htype := hcolon.trans (type.ahead hcolon.ready)
    have hparen := htype.trans htype.ready.next
    obtain ⟨hargs, hlaid⟩ := list.read_items hparen.ready
    have hclose := hargs.ready.next
    exact ⟨(hparen.reached.trans hargs).trans hclose.reached,
      Phrase.laid_call htarget (hlaid.mono hparen.reached.le hclose.behind) hclose.stretch⟩
  | _, _, _, _, .offset index, hc, _, htarget => by
    have hbracket := hc.next
    obtain ⟨hindex, hlaid⟩ := index.read hbracket.ready
    have hclose := hindex.ready.next
    exact ⟨(hbracket.reached.trans hindex).trans hclose.reached,
      Phrase.laid_offset htarget (hlaid.mono (le_refl _) hclose.behind) hbracket.reached.le
        hclose.stretch⟩
termination_by structural _ _ _ _ h => h

theorem Primary.read : ∀ {c u c'}, Primary c u c' → Ready tokens c →
    Reached tokens c c' ∧ u.Laid r tokens c.previous.stop c'.previous.stop
  | _, _, _, .int, hc | _, _, _, .float, hc | _, _, _, .string, hc =>
    ⟨hc.next.reached, (Phrase.laid_literal hc.next.stretch).mono hc.next.behind (le_refl _)⟩
  | _, _, _, .name, hc =>
    ⟨hc.next.reached, (Phrase.laid_reference hc.next.stretch).mono hc.next.behind (le_refl _)⟩
  | _, _, _, .annotated type, hc => by
    have hname := hc.next
    have hcolon := hname.ready.next
    have htype := hcolon.trans (type.ahead hcolon.ready)
    exact ⟨hname.reached.trans htype.reached,
      (Phrase.laid_annotated hname.stretch htype.stretch htype.behind).mono hname.behind
        (le_refl _)⟩
  | _, _, _, .lambda list body _, hc => by
    have hpipe := hc.next
    have hparams := list.reached Name.ahead hpipe.ready
    have hclose := hparams.ahead hparams.ready.next
    obtain ⟨hbody, hlaid⟩ := body.read hclose.ready
    exact ⟨(hpipe.reached.trans hclose.reached).trans hbody,
      (Phrase.laid_lambda hpipe.stretch (hlaid.mono hclose.reached.le (le_refl _))).mono
        hpipe.behind (le_refl _)⟩
  | _, _, _, .thunk body _, hc => by
    have hpipes := hc.next
    obtain ⟨hbody, hlaid⟩ := body.read hpipes.ready
    exact ⟨hpipes.reached.trans hbody,
      (Phrase.laid_lambda hpipes.stretch hlaid).mono hpipes.behind (le_refl _)⟩
  | _, _, _, .parens inner, hc => by
    have hparen := hc.next
    obtain ⟨hinner, hlaid⟩ := inner.read hparen.ready
    have hclose := hinner.ready.next
    exact ⟨(hparen.reached.trans hinner).trans hclose.reached,
      hlaid.mono hparen.reached.le hclose.reached.le⟩
  | _, _, _, .list list, hc => by
    have hbracket := hc.next
    obtain ⟨hitems, hlaid⟩ := list.read_items hbracket.ready
    have hclose := hitems.ready.next
    exact ⟨(hbracket.reached.trans hitems).trans hclose.reached,
      (Phrase.laid_list hbracket.stretch hclose.stretch
        (hlaid.mono (le_refl _) hclose.behind)).mono hbracket.behind (le_refl _)⟩
  | _, _, _, .struct list, hc => by
    have hbrace := hc.next
    obtain ⟨hfields, hlaid⟩ := list.read_entries hbrace.ready
    have hclose := hfields.ready.next
    exact ⟨(hbrace.reached.trans hfields).trans hclose.reached,
      (Phrase.laid_struct hbrace.stretch hclose.stretch
        (hlaid.mono (le_refl _) hclose.behind)).mono hbrace.behind (le_refl _)⟩
termination_by structural _ _ _ h => h

theorem Field.read : ∀ {c x c'}, Field c x c' → Ready tokens c →
    Reached tokens c c' ∧ x.2.2.Laid r tokens c.previous.stop c'.previous.stop
  | _, _, _, .field value, hc => by
    have hcolon := hc.next.trans hc.next.ready.next
    obtain ⟨hvalue, hlaid⟩ := value.read hcolon.ready
    exact ⟨hcolon.reached.trans hvalue, hlaid.mono hcolon.reached.le (le_refl _)⟩
termination_by structural _ _ _ h => h

theorem Listed.read_items : ∀ {c us c'}, Listed Expression c us c' → Ready tokens c →
    Reached tokens c c' ∧ Phrase.LaidItems r tokens c.previous.stop us c'.previous.stop
  | _, _, _, .none, hc => ⟨.refl hc, .nil (le_refl _)⟩
  | _, _, _, .one item, hc => by
    obtain ⟨hitem, hlaid⟩ := item.read hc
    exact ⟨hitem, .cons (fun _ => hlaid) (.nil (le_refl _))⟩
  | _, _, _, .more item rest, hc => by
    obtain ⟨hitem, hlaid⟩ := item.read hc
    have hcomma := hitem.ready.next
    obtain ⟨hrest, hothers⟩ := rest.read_items hcomma.ready
    exact ⟨(hitem.trans hcomma.reached).trans hrest,
      .cons (fun _ => hlaid) (hothers.mono hcomma.reached.le (le_refl _))⟩
termination_by structural _ _ _ h => h

theorem Listed.read_entries : ∀ {c xs c'}, Listed Field c xs c' → Ready tokens c →
    Reached tokens c c' ∧ Phrase.LaidFields r tokens c.previous.stop xs c'.previous.stop
  | _, _, _, .none, hc => ⟨.refl hc, .nil (le_refl _)⟩
  | _, _, _, .one item, hc => by
    obtain ⟨hitem, hlaid⟩ := item.read hc
    exact ⟨hitem, .cons (Phrase.laid_entry hlaid) (.nil (le_refl _))⟩
  | _, _, _, .more item rest, hc => by
    obtain ⟨hitem, hlaid⟩ := item.read hc
    have hcomma := hitem.ready.next
    obtain ⟨hrest, hothers⟩ := rest.read_entries hcomma.ready
    exact ⟨(hitem.trans hcomma.reached).trans hrest,
      .cons (Phrase.laid_entry hlaid) (hothers.mono hcomma.reached.le (le_refl _))⟩
termination_by structural _ _ _ h => h

end

end Grammar

open Ascription.Expr

/-- **Every node of an accepted text is in its place**, if the places of its tokens are
words: it stands on a stretch of the tokens of the text, its parts stand inside, and they
stand one behind the other. -/
theorem parseWith_placed {source : String} {r : Registry} {ds : Declarations} {e : Expr}
    (hfit : TokensFit source) (h : parseWith source r ds = .ok e) :
    ∃ tokens, tokenize source = .ok tokens ∧ ∀ n, Within n e → n.Placed tokens := by
  obtain ⟨tokens, ht, u, ⟨stop, hu⟩, ds', he⟩ := parseWith_eq_ok.mp h
  have hready : Place.Ready tokens ⟨Span.point Position.first, tokens⟩ :=
    ⟨inOrder_of_tokenize hfit ht, fun _ => id⟩
  obtain ⟨-, hlaid⟩ := hu.read hready
  exact ⟨tokens, ht, (hlaid he).placed⟩

/-- A text of three lines with a declaration, a target in parentheses and a lambda. -/
theorem parseWith_placed_lines : ∃ e,
    parseWith "declare f: float\n-(f).half:float(|x| [x:int,\n  2]) > 1.0" .initial [] = .ok e ∧
      e.span = ⟨⟨2, 1⟩, ⟨3, 12⟩⟩ ∧
      ∃ tokens,
        tokenize "declare f: float\n-(f).half:float(|x| [x:int,\n  2]) > 1.0" = .ok tokens ∧
          ∀ n, Within n e → n.Placed tokens := by
  have h : parseWith "declare f: float\n-(f).half:float(|x| [x:int,\n  2]) > 1.0" .initial [] =
      .ok (.binary ⟨⟨2, 1⟩, ⟨3, 12⟩⟩ .gt
        (.negative ⟨⟨2, 1⟩, ⟨3, 6⟩⟩
          (.call ⟨⟨2, 3⟩, ⟨3, 6⟩⟩ (.get ⟨⟨2, 3⟩, ⟨2, 4⟩⟩ "f" .float) "half" .float
            [.lambda ⟨⟨2, 17⟩, ⟨3, 5⟩⟩ ["x"] (.list ⟨⟨2, 21⟩, ⟨3, 5⟩⟩
              [.get ⟨⟨2, 22⟩, ⟨2, 27⟩⟩ "x" .int, .literal ⟨⟨3, 3⟩, ⟨3, 4⟩⟩ (.int 2)])]))
        (.literal ⟨⟨3, 9⟩, ⟨3, 12⟩⟩ (.float (.ofNat 1)))) := by
    decide +kernel
  exact ⟨_, h, rfl, parseWith_placed ⟨by decide, fun hsize => absurd hsize (by decide)⟩ h⟩

/-- In `2 ^ 32 - 1` bytes without a line break the last token ends in column zero, so an operand
there ends before it starts. -/
theorem parseWith_not_always_placed :
    (behindBlanks 4294967292 ['1', '>', '2']).utf8ByteSize < LineMap.wordSize ∧
    ∃ e, parseWith (behindBlanks 4294967292 ['1', '>', '2']) .initial [] = .ok e ∧
      ¬ ∃ tokens, tokenize (behindBlanks 4294967292 ['1', '>', '2']) = .ok tokens ∧
        ∀ n, Within n e → n.Placed tokens := by
  have hoffsets : ∀ {n}, let m := LineMap.ofSource (behindBlanks n ['1', '>', '2'])
      lex (behindBlanks n ['1', '>', '2']) =
        ⟨[⟨['1'], .int 1, m.span n (n + 1)⟩, ⟨['>'], .punct .greater, m.span (n + 1) (n + 2)⟩,
          ⟨['2'], .int 2, m.span (n + 2) (n + 3)⟩], none⟩ := by
    intro n m
    rw [lex_behindBlanks]
    rfl
  have hlex : lex (behindBlanks 4294967292 ['1', '>', '2']) =
      ⟨[⟨['1'], .int 1, ⟨⟨1, 4294967293⟩, ⟨1, 4294967294⟩⟩⟩,
        ⟨['>'], .punct .greater, ⟨⟨1, 4294967294⟩, ⟨1, 4294967295⟩⟩⟩,
        ⟨['2'], .int 2, ⟨⟨1, 4294967295⟩, ⟨1, 0⟩⟩⟩], none⟩ := by
    rw [hoffsets]
    simp only [span_behindBlanks (show '\n' ∉ ['1', '>', '2'] by decide)]
    rfl
  have hparse : parseWith (behindBlanks 4294967292 ['1', '>', '2']) .initial [] =
      .ok (.binary ⟨⟨1, 4294967293⟩, ⟨1, 4294967294⟩⟩ .gt
        (.literal ⟨⟨1, 4294967293⟩, ⟨1, 4294967294⟩⟩ (.int 1))
        (.literal ⟨⟨1, 4294967295⟩, ⟨1, 0⟩⟩ (.int 2))) := by
    rw [parseWith, parseProgram, Parser.readAll, hlex]
    rfl
  refine ⟨?_, _, hparse, ?_⟩
  · rw [utf8ByteSize_behindBlanks]
    decide
  · rintro ⟨tokens, -, hplaced⟩
    have hoperand := hplaced (.literal ⟨⟨1, 4294967295⟩, ⟨1, 0⟩⟩ (.int 2))
      (.part (by simp [children]) .refl)
    exact absurd hoperand.stretch.nonempty (by decide)

end Ascription
