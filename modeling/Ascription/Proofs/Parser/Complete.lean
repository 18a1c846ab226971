import Ascription.Proofs.Parser.Sound
import Ascription.Proofs.Phrase.Shorter

/-!
# Proofs/Parser/Complete — what the grammar derives is read

    phrase at c up to c' ──▸ answer at c, and the state is at c'

The induction is on the fuel: a part of a phrase is read with the fuel that is left, which
covers the tokens to come because each production takes at least one.  What stands behind a
phrase decides how far its parser goes, so each statement bounds the tokens before it and
names the tokens behind it.
-/

namespace Ascription

open Phrase Grammar

/-- A parser that answers whatever the grammar `G` and the second pass `E` give a place with fewer
than `n` tokens to come. -/
def Complete {υ α : Type} (n : Nat) (G : Place → υ → Place → Prop)
    (E : υ → Declarations → Except ParseError (α × Declarations)) (p : Parser α) : Prop :=
  ∀ ⦃c u c'⦄, G c u c' → c.size < n → ∀ ⦃ds a ds'⦄, E u ds = .ok (a, ds') →
    p (c.state ds) = .done a (c'.state ds')

/-- What a parser answers for a grammar it answers for a part of it. -/
theorem Complete.imp {υ α : Type} {n : Nat} {G G' : Place → υ → Place → Prop}
    {E : υ → Declarations → Except ParseError (α × Declarations)} {p : Parser α}
    (h : Complete n G E p) (hG : ∀ {c u c'}, G' c u c' → G c u c') : Complete n G' E p :=
  fun _ _ _ hu hn _ _ _ he => h (hG hu) hn he

namespace Parser

/-! ## Lists -/

/-- **A list is read** if its items are, up to its closing mark or a comma. -/
theorem items_complete {υ α : Type} {Item : Place → υ → Place → Prop}
    {f : List α → υ → Declarations → Except ParseError (α × Declarations)}
    {item : List α → Parser α} {close : Punct} {n : Nat} (hclose : close ≠ .comma)
    (hopen : ∀ {c x c'}, Item c x c' → c.next ≠ some (.punct close))
    (hshort : ∀ {c x c'}, Item c x c' → c'.size < c.size)
    (h : ∀ done, Complete n (fun c x c' => Item c x c' ∧ atMark close c') (f done) (item done)) :
    Complete n (Closed Item close) (each f []) (items item close) := by
  suffices h : ∀ {c us c'}, Listed Item c us c' → c.size < n →
      ∀ {p span ts m}, c' = ⟨p, ⟨.punct close, span⟩ :: ts⟩ → c.size < m →
        ∀ {done ds as ds'}, each f done us ds = .ok (as, ds') →
          itemsFrom item close m done (c.state ds) = .done as (Place.state ⟨span, ts⟩ ds') by
    rintro c us _ ⟨p, span, ts, hus, rfl⟩ hn ds as ds' he
    exact h hus hn rfl (Nat.lt_succ_self _) he
  intro c us c' hus
  induction hus with
  | none =>
    rintro hn p span ts m rfl hm done ds as ds' he
    obtain ⟨m, rfl⟩ := Nat.exists_eq_succ_of_ne_zero (Nat.ne_of_gt (Nat.zero_lt_of_lt hm))
    cases he
    refine bind_eq_done.mpr ⟨true, _, looksAt_eq_done.mpr ⟨beq_self_eq_true _, rfl⟩, ?_⟩
    exact bind_eq_done.mpr ⟨_, _, expect_state, rfl⟩
  | one hitem =>
    rintro hn p span ts m rfl hm done ds as ds' he
    obtain ⟨m, rfl⟩ := Nat.exists_eq_succ_of_ne_zero (Nat.ne_of_gt (Nat.zero_lt_of_lt hm))
    obtain ⟨a, ds₁, ha, he⟩ := each_cons_eq_ok.mp he
    cases he
    refine bind_eq_done.mpr ⟨false, _, looksAt_eq_done.mpr ⟨by simpa using hopen hitem, rfl⟩, ?_⟩
    refine bind_eq_done.mpr ⟨_, _, h done ⟨hitem, .inl rfl⟩ hn ha, ?_⟩
    refine bind_eq_done.mpr ⟨_, _, accept_state_of_ne (by simpa using hclose), ?_⟩
    exact bind_eq_done.mpr ⟨_, _, expect_state, rfl⟩
  | more hitem _ ih =>
    rintro hn p span ts m rfl hm done ds as ds' he
    obtain ⟨m, rfl⟩ := Nat.exists_eq_succ_of_ne_zero (Nat.ne_of_gt (Nat.zero_lt_of_lt hm))
    obtain ⟨a, ds₁, ha, he⟩ := each_cons_eq_ok.mp he
    have hlt := hshort hitem
    simp at hlt
    refine bind_eq_done.mpr ⟨false, _, looksAt_eq_done.mpr ⟨by simpa using hopen hitem, rfl⟩, ?_⟩
    refine bind_eq_done.mpr ⟨_, _, h done ⟨hitem, .inr rfl⟩ hn ha, ?_⟩
    refine bind_eq_done.mpr ⟨_, _, accept_state, ?_⟩
    exact ih (by simp; omega) rfl (by simp; omega) he

/-- A list of what is kept as it is written. -/
theorem kept_complete {α : Type} {Item : Place → α → Place → Prop} {item : Parser α}
    {close : Punct} {n : Nat} (hclose : close ≠ .comma)
    (hopen : ∀ {c x c'}, Item c x c' → c.next ≠ some (.punct close))
    (hshort : ∀ {c x c'}, Item c x c' → c'.size < c.size) (h : Complete n Item kept item) :
    Complete n (Closed Item close) kept (items (fun _ => item) close) := by
  intro c us c' hus hn ds a ds' he
  obtain ⟨rfl, rfl⟩ := kept_eq_ok.mp he
  exact items_complete (f := fun _ => kept) hclose hopen hshort (fun _ => h.imp And.left) hus hn
    each_kept

theorem expectName_complete {n : Nat} : Complete n Name kept expectName := by
  rintro _ _ _ ⟨⟩ - ds a ds' he
  obtain ⟨rfl, rfl⟩ := kept_eq_ok.mp he
  exact expectName_state

/-! ## Types -/

section Types

variable {type : Parser TypeExpr} {n : Nat} (h : Complete n TypeName kept type)

include h

theorem typeField_complete : Complete n TypeField kept (typeField type) := by
  rintro _ _ _ ⟨ht⟩ hn ds a ds' he
  obtain ⟨rfl, rfl⟩ := kept_eq_ok.mp he
  simp at hn
  refine bind_eq_done.mpr ⟨_, _, expectName_state, ?_⟩
  refine bind_eq_done.mpr ⟨_, _, expect_state, ?_⟩
  exact bind_eq_done.mpr ⟨_, _, h ht (by simp; omega) rfl, rfl⟩

theorem typeStep_complete : Complete (n + 1) TypeName kept (typeStep type) := by
  intro c t c' ht hn ds a ds' he
  obtain ⟨rfl, rfl⟩ := kept_eq_ok.mp he
  refine bind_eq_done.mpr ⟨_, _, peek_state, ?_⟩
  cases ht with
  | name less paren =>
    refine bind_eq_done.mpr ⟨_, _, expectName_state, ?_⟩
    refine bind_eq_done.mpr ⟨_, _, looksAt_state, ?_⟩
    rw [if_neg (by simpa using paren)]
    exact bind_eq_done.mpr ⟨_, _, accept_state_of_ne less, rfl⟩
  | @applied _ _ _ _ _ args _ _ _ list =>
    simp at hn
    refine bind_eq_done.mpr ⟨_, _, expectName_state, ?_⟩
    refine bind_eq_done.mpr ⟨_, _, looksAt_state, ?_⟩
    rw [if_neg (by simp)]
    refine bind_eq_done.mpr ⟨_, _, accept_state, ?_⟩
    refine bind_eq_done.mpr ⟨_, _, kept_complete (by decide) (fun h => h.opens (by decide))
      TypeName.shorter h ⟨_, _, _, list, rfl⟩ (by simp; omega) rfl, ?_⟩
    cases args with
    | nil => rfl
    | cons => exact bind_eq_done.mpr ⟨_, _, previousSpan_state, rfl⟩
  | func list returns =>
    have hle := list.shorter_types
    simp at hn hle
    refine bind_eq_done.mpr ⟨_, _, expectName_state, ?_⟩
    refine bind_eq_done.mpr ⟨true, _, looksAt_eq_done.mpr ⟨rfl, rfl⟩, ?_⟩
    refine bind_eq_done.mpr ⟨_, _, expect_state, ?_⟩
    refine bind_eq_done.mpr ⟨_, _, kept_complete (by decide) (fun h => h.opens (by decide))
      TypeName.shorter h ⟨_, _, _, list, rfl⟩ (by simp; omega) rfl, ?_⟩
    refine bind_eq_done.mpr ⟨_, _, expect_state, ?_⟩
    exact bind_eq_done.mpr ⟨_, _, h returns (by simp; omega) rfl, rfl⟩
  | struct list =>
    simp at hn
    refine bind_eq_done.mpr ⟨_, _, expect_state, ?_⟩
    refine bind_eq_done.mpr ⟨_, _, kept_complete (by decide) (fun h => h.opens _)
      TypeField.shorter (typeField_complete h) ⟨_, _, _, list, rfl⟩ (by simp; omega) rfl, ?_⟩
    exact bind_eq_done.mpr ⟨_, _, previousSpan_state, rfl⟩

end Types

/-- **A type of the grammar is read.** -/
theorem typeFrom_complete : ∀ n, Complete n TypeName kept (typeFrom n)
  | 0, _, _, _, _, hn => absurd hn (Nat.not_lt_zero _)
  | n + 1, _, _, _, ht, hn => typeStep_complete (typeFrom_complete n) ht hn

theorem type_complete {r : Registry} {n : Nat} : Complete n TypeName (resolved r) (type r) := by
  intro c t c' ht _ ds a ds' he
  obtain ⟨hr, rfl⟩ := resolved_eq_ok.mp he
  exact bind_eq_done.mpr ⟨t, _, typeFrom_complete _ ht (Nat.lt_succ_self _) rfl, judge_ok hr⟩

end Parser

end Ascription
