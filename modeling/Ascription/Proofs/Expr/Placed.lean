import Ascription.Proofs.Expr.Within
import Ascription.Proofs.Source.Span
import Ascription.Token

/-!
# Proofs/Expr/Placed — nodes that stand where their tokens stand

    a.start ≤ c₁.start < c₁.stop ≤ c₂.start < c₂.stop ≤ … ≤ b.stop

The span of a node goes from the start of a token `a` to the end of a token `b`, and its parts `cᵢ`
stand one behind the other in between.  What is put together from such parts is such a node again.
-/

namespace Ascription

/-- **A stretch of tokens**: from where one of them starts to where one of them ends. -/
structure Span.Stretch (tokens : List Token) (s : Span) : Prop where
  starts : ∃ t ∈ tokens, s.start = t.span.start
  ends : ∃ t ∈ tokens, s.stop = t.span.stop
  nonempty : s.start < s.stop

namespace Span.Stretch

variable {tokens : List Token} {a b : Span}

theorem token {t : Token} (h : t ∈ tokens) (hlt : t.span.start < t.span.stop) :
    Stretch tokens t.span := ⟨⟨t, h, rfl⟩, ⟨t, h, rfl⟩, hlt⟩

/-- A stretch and a later one merge to the stretch around them. -/
theorem merge_eq (ha : Stretch tokens a) (hb : Stretch tokens b) (h : a.stop ≤ b.start) :
    merge a b = ⟨a.start, b.stop⟩ :=
  Span.merge_eq (le_of_lt (lt_of_lt_of_le ha.nonempty h)) (le_of_lt (lt_of_le_of_lt h hb.nonempty))

theorem merge (ha : Stretch tokens a) (hb : Stretch tokens b) (h : a.stop ≤ b.start) :
    Stretch tokens (merge a b) := by
  rw [merge_eq ha hb h]
  exact ⟨ha.starts, hb.ends, lt_trans ha.nonempty (lt_of_le_of_lt h hb.nonempty)⟩

end Span.Stretch

namespace Expr

/-- **A node in its place**: on a stretch of tokens, its parts inside and from left to right. -/
structure Placed (tokens : List Token) (e : Expr) : Prop where
  stretch : e.span.Stretch tokens
  inside : ∀ c ∈ e.children, e.span.start ≤ c.span.start ∧ c.span.stop ≤ e.span.stop
  ordered : e.children.Pairwise fun a b => a.span.stop ≤ b.span.start

/-- **An expression laid out between two places**, every node in it in its place. -/
structure Laid (tokens : List Token) (lo hi : Position) (e : Expr) : Prop where
  placed : Everywhere (Placed tokens) e
  above : lo ≤ e.span.start
  below : e.span.stop ≤ hi

/-- **Expressions laid out between two places**, one behind the other. -/
inductive LaidAll (tokens : List Token) : Position → List Expr → Position → Prop
  | nil {lo hi : Position} (le : lo ≤ hi) : LaidAll tokens lo [] hi
  | cons {lo mid hi : Position} {e : Expr} {es : List Expr} (head : Laid tokens lo mid e)
      (others : LaidAll tokens mid es hi) : LaidAll tokens lo (e :: es) hi

variable {tokens : List Token} {lo lo' mid hi hi' : Position} {e : Expr} {es : List Expr}

namespace Laid

theorem stretch (h : Laid tokens lo hi e) : e.span.Stretch tokens := h.placed.here.stretch

theorem le (h : Laid tokens lo hi e) : lo ≤ hi :=
  le_trans h.above (le_trans (le_of_lt h.stretch.nonempty) h.below)

theorem mono (h : Laid tokens lo hi e) (hlo : lo' ≤ lo) (hhi : hi ≤ hi') : Laid tokens lo' hi' e :=
  ⟨h.placed, le_trans hlo h.above, le_trans h.below hhi⟩

/-- Nothing is laid out more tightly than on its own span. -/
theorem tight (h : Laid tokens lo hi e) : Laid tokens e.span.start e.span.stop e :=
  ⟨h.placed, le_refl _, le_refl _⟩

end Laid

namespace LaidAll

theorem le (h : LaidAll tokens lo es hi) : lo ≤ hi := by
  induction h with
  | nil le => exact le
  | cons head _ ih => exact le_trans head.le ih

theorem mono (h : LaidAll tokens lo es hi) (hlo : lo' ≤ lo) (hhi : hi ≤ hi') :
    LaidAll tokens lo' es hi' := by
  induction h generalizing lo' with
  | nil le => exact .nil (le_trans hlo (le_trans le hhi))
  | cons head _ ih => exact .cons (head.mono hlo (le_refl _)) (ih (le_refl _) hhi)

theorem one (h : Laid tokens lo hi e) : LaidAll tokens lo [e] hi := .cons h (.nil (le_refl _))

theorem laid (h : LaidAll tokens lo es hi) : ∀ e ∈ es, Laid tokens lo hi e := by
  induction h with
  | nil => exact List.forall_mem_nil _
  | cons head others ih =>
    exact List.forall_mem_cons.mpr ⟨head.mono (le_refl _) others.le,
      fun e he => (ih e he).mono head.le (le_refl _)⟩

theorem ordered (h : LaidAll tokens lo es hi) :
    es.Pairwise fun a b => a.span.stop ≤ b.span.start := by
  induction h with
  | nil => exact .nil
  | cons head others ih =>
    exact .cons (fun b hb => le_trans head.below (others.laid b hb).above) ih

end LaidAll

/-- **A node on a stretch of tokens is in its place** when its parts are laid out on the stretch. -/
theorem Laid.node (hspan : e.span.Stretch tokens)
    (hparts : LaidAll tokens e.span.start e.children e.span.stop) :
    Laid tokens e.span.start e.span.stop e :=
  ⟨.node ⟨hspan, fun c hc => ⟨(hparts.laid c hc).above, (hparts.laid c hc).below⟩, hparts.ordered⟩
    fun c hc => (hparts.laid c hc).placed, le_refl _, le_refl _⟩

/-- The same for a node whose span is put together from that of its first and of its last part. -/
theorem Laid.merged {a b : Span} (ha : a.Stretch tokens) (hb : b.Stretch tokens)
    (h : a.stop ≤ b.start) (hspan : e.span = Span.merge a b)
    (hparts : LaidAll tokens a.start e.children b.stop) : Laid tokens a.start b.stop e := by
  have heq : e.span = ⟨a.start, b.stop⟩ := hspan.trans (ha.merge_eq hb h)
  have hnode : Laid tokens e.span.start e.span.stop e :=
    .node (hspan ▸ ha.merge hb h) (by rwa [heq])
  rwa [heq] at hnode

/-- The same for a node that is a token and one part behind it. -/
theorem Laid.behind {s : Span} {c : Expr} (hs : s.Stretch tokens) (h : Laid tokens s.stop hi c)
    (hspan : e.span = Span.merge s c.span) (hparts : e.children = [c]) :
    Laid tokens s.start hi e := by
  refine (merged hs h.stretch h.above hspan ?_).mono (le_refl _) h.below
  rw [hparts]
  exact .one (h.tight.mono (le_of_lt (lt_of_lt_of_le hs.nonempty h.above)) (le_refl _))

end Expr

end Ascription
