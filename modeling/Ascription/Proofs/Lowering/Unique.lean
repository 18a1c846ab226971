import Ascription.Proofs.Lowering.Grammar
import Ascription.Proofs.Number.Notation
import Ascription.Proofs.Text.Quoted

/-!
# Proofs/Lowering/Unique — no source shows two outlines

    behind an expression   the end, ',', ')' or ']'
    behind an operand      …or a blank
    behind a primary       …or '.' or '['

The first character tells the productions apart, and none of the marks that may stand behind a
phrase goes on with it.  So two derivations from the same characters, both with such a mark behind,
agree.
-/

namespace Ascription

namespace Rust

open Lexer (takeWhile_append dropWhile_append)
open Numeral (isDigit isNumeric)

/-! ## What may stand behind -/

/-- One of the marks is next, or nothing. -/
def Before (marks cs : List Char) : Prop := ∀ c ∈ cs.head?, c ∈ marks

/-- The marks behind an expression. -/
def closings : List Char := [',', ')', ']']

/-- The marks behind an operand. -/
def breaks : List Char := ' ' :: closings

/-- The marks behind a primary. -/
def stops : List Char := '.' :: '[' :: breaks

theorem before_cons {marks : List Char} {c : Char} {cs : List Char} (h : c ∈ marks) :
    Before marks (c :: cs) := by
  rintro _ ⟨⟩
  exact h

theorem Before.mono {marks marks' cs : List Char} (h : Before marks cs) (hsub : marks ⊆ marks') :
    Before marks' cs := fun c hc => hsub (h c hc)

theorem Before.elim {marks : List Char} {c : Char} {cs : List Char} (h : Before marks (c :: cs))
    (hc : c ∉ marks) : False := hc (h c rfl)

/-! ## What comes first -/

/-- The first character is one of a class. -/
def Starts (q : Char → Bool) (cs : List Char) : Prop := ∃ c, cs.head? = some c ∧ q c = true

section

variable {q q' : Char → Bool} {c : Char} {cs rest : List Char}

theorem Starts.imp (h : Starts q cs) (hq : ∀ c, q c = true → q' c = true) : Starts q' cs := by
  obtain ⟨c, hc, h⟩ := h
  exact ⟨c, hc, hq c h⟩

theorem Starts.append (h : Starts q cs) : Starts q (cs ++ rest) := by
  obtain ⟨c, hc, h⟩ := h
  exact ⟨c, by rw [List.head?_append, hc, Option.some_or], h⟩

theorem Starts.head_ne (h : Starts q cs) (hc : q c = false) : cs.head? ≠ some c := by
  obtain ⟨d, hd, h⟩ := h
  intro hcs
  obtain rfl := Option.some.inj (hd.symm.trans hcs)
  rw [hc] at h
  cases h

theorem Starts.elim (h : Starts q (c :: cs)) (hc : q c = false) : False := h.head_ne hc rfl

/-- What starts in one class does not start in another apart from it. -/
theorem Starts.disjoint (h : Starts q cs) (h' : Starts q' cs)
    (hq : ∀ c, q c = true → q' c = false) : False := by
  obtain ⟨c, hc, h⟩ := h
  exact h'.head_ne (hq c h) hc

end

/-! ## Words -/

/-- Characters of a class can be cut off in one way. -/
theorem append_inj_of_class {q : Char → Bool} {as bs r r' : List Char} (has : ∀ c ∈ as, q c = true)
    (hbs : ∀ c ∈ bs, q c = true) (hr : ∀ c ∈ r.head?, q c = false)
    (hr' : ∀ c ∈ r'.head?, q c = false) (h : as ++ r = bs ++ r') : as = bs ∧ r = r' := by
  have htake := congrArg (List.takeWhile q) h
  have hdrop := congrArg (List.dropWhile q) h
  rw [takeWhile_append has hr, takeWhile_append hbs hr'] at htake
  rw [dropWhile_append has hr, dropWhile_append hbs hr'] at hdrop
  exact ⟨htake, hdrop⟩

theorem isNameChar_of_startsName {c : Char} (h : startsName c = true) : isNameChar c = true := by
  obtain h | h := Bool.or_eq_true_iff.mp h <;> simp [isNameChar, Char.isAlphanum, h]

variable {cs : List Char}

theorem Word.starts {n : String} {rest : List Char} (h : Word cs n rest) :
    Starts startsName cs := by
  obtain ⟨hn, rfl⟩ := h
  rw [isIdentifier] at hn
  split at hn
  · cases hn
  case h_2 c ds hcs =>
    rw [hcs]
    exact ⟨c, rfl, (Bool.and_eq_true_iff.mp hn).1⟩

theorem isNameChar_of_isIdentifier {n : String} (h : isIdentifier n = true) :
    ∀ c ∈ n.toList, isNameChar c = true := by
  rw [isIdentifier] at h
  split at h
  · cases h
  case h_2 c ds hcs =>
    obtain ⟨hc, hds⟩ := Bool.and_eq_true_iff.mp h
    rw [hcs]
    exact List.forall_mem_cons.mpr ⟨isNameChar_of_startsName hc, List.all_eq_true.mp hds⟩

/-- Does the name end here? -/
def Ended (cs : List Char) : Prop := ∀ c ∈ cs.head?, isNameChar c = false

theorem Before.ended {marks : List Char} (h : Before marks cs)
    (hmarks : marks.any isNameChar = false) : Ended cs := fun c hc =>
  Bool.eq_false_iff.mpr (List.any_eq_false.mp hmarks c (h c hc))

/-- **A name is pinned** by a character behind that is none of a name. -/
theorem Word.unique {n n' : String} {r r' : List Char} (h : Word cs n r) (h' : Word cs n' r')
    (hr : Ended r) (hr' : Ended r') : n = n' ∧ r = r' := by
  obtain ⟨hn, rfl⟩ := h
  obtain ⟨hn', htext⟩ := h'
  obtain ⟨hname, hrest⟩ := append_inj_of_class (isNameChar_of_isIdentifier hn)
    (isNameChar_of_isIdentifier hn') hr hr' htext
  exact ⟨String.toList_inj.mp hname, hrest⟩

/-! ## Literals -/

namespace Number

variable {ds : List Char} {c : Char} {o o' : Outline}

theorem isNumeric (h : Number ds c o) : ∀ d ∈ ds, Numeral.isNumeric d = true := by
  cases h with
  | int => exact fun d hd => Numeral.isNumeric_of_isDigit (Numeral.isDigit_digits d hd)
  | float => exact Numeral.isNumeric_magnitude

theorem isNumeric_type (h : Number ds c o) : Numeral.isNumeric c = false := by
  cases h <;> rfl

theorem starts (h : Number ds c o) : Starts isDigit ds := by
  cases h with
  | @int n =>
    obtain ⟨d, ds, hds⟩ := List.exists_cons_of_ne_nil (Numeral.digits_ne_nil (n := n))
    exact ⟨d, hds ▸ rfl, Numeral.isDigit_digits d (hds ▸ List.mem_cons_self)⟩
  | @float x =>
    obtain ⟨d, ds, hds, hd⟩ := Numeral.exists_magnitude_eq_cons .value x
    exact ⟨d, hds ▸ rfl, hd⟩

/-- **A number is pinned** by its digits and its type. -/
theorem unique {c' : Char} {ds' : List Char} (h : Number ds c o) (h' : Number ds' c' o')
    (hds : ds = ds') (hc : c = c') : o = o' := by
  cases h with
  | int =>
    cases h' with
    | int =>
      have hvalue := congrArg Numeral.natural hds
      rw [Numeral.natural_digits, Numeral.natural_digits] at hvalue
      rw [hvalue]
    | float => exact absurd hc (by decide)
  | float finite positive =>
    cases h' with
    | int => exact absurd hc (by decide)
    | float finite' positive' =>
      rw [Numeral.magnitude_inj finite finite' (positive.trans positive'.symm) hds]

end Number

theorem starts_quoted {s : String} {rest : List Char} :
    Starts (· == '\"') ((quoted s).toList ++ rest) := by
  rw [quoted, String.toList_ofList]
  exact ⟨'\"', rfl, rfl⟩

/-- The characters a literal without a sign starts with. -/
def startsLiteral (c : Char) : Bool := isDigit c || c == '\"'

theorem Unsigned.starts {o : Outline} {rest : List Char} (h : Unsigned cs o rest) :
    Starts startsLiteral cs := by
  cases h with
  | string text =>
    rw [text]
    exact starts_quoted.imp fun c hc => Bool.or_eq_true_iff.mpr (.inr hc)
  | number number text =>
    rw [text]
    exact number.starts.append.imp fun c hc => Bool.or_eq_true_iff.mpr (.inl hc)

/-- A number is no quoted text. -/
theorem Number.ne_quoted {ds : List Char} {c : Char} {o : Outline} {s : String} {r r' : List Char}
    (h : Number ds c o) : ds ++ c :: r ≠ (quoted s).toList ++ r' := by
  intro htext
  have hstarts : Starts isDigit ((quoted s).toList ++ r') := htext ▸ h.starts.append
  exact hstarts.disjoint starts_quoted fun c hc => beq_false_of_ne (Numeral.isDigit_ne hc rfl)

/-- **A literal is pinned** whatever stands behind it. -/
theorem Unsigned.unique {o o' : Outline} {r r' : List Char} (h : Unsigned cs o r)
    (h' : Unsigned cs o' r') : o = o' ∧ r = r' := by
  cases h with
  | string text =>
    cases h' with
    | string text' =>
      obtain ⟨rfl, rfl⟩ := quoted_append_inj (text.symm.trans text')
      exact ⟨rfl, rfl⟩
    | number number text' => exact absurd (text'.symm.trans text) number.ne_quoted
  | number number text =>
    cases h' with
    | string text' => exact absurd (text.symm.trans text') number.ne_quoted
    | number number' text' =>
      have hends : ∀ {c : Char} {cs : List Char}, isNumeric c = false →
          ∀ d ∈ (c :: cs).head?, isNumeric d = false := by
        rintro c cs hc _ ⟨⟩
        exact hc
      obtain ⟨hds, hrest⟩ := append_inj_of_class number.isNumeric number'.isNumeric
        (hends number.isNumeric_type) (hends number'.isNumeric_type) (text.symm.trans text')
      injection hrest with hc hrest
      injection hrest with _ hrest
      injection hrest with _ hrest
      exact ⟨number.unique number' hds hc, hrest⟩

/-! ## Lists -/

/-- What is read is pinned, if one of the marks stands behind it. -/
def Pinned {α : Type} (Item : List Char → α → List Char → Prop) (marks cs : List Char) (x : α)
    (rest : List Char) : Prop :=
  Before marks rest → ∀ y rest', Item cs y rest' → Before marks rest' → x = y ∧ rest = rest'

/-- **A list of pinned items is pinned** by its closing mark, if no item starts with that mark. -/
theorem Listed.unique {α : Type} {Item : List Char → α → List Char → Prop} {close : Char}
    (hclose : close ≠ ',') (hopen : ∀ {cs x rest}, Item cs x rest → cs.head? ≠ some close)
    {r r' : List Char} {xs ys : List α}
    (h : Listed (fun cs x rest => Item cs x rest ∧ Pinned Item [',', close] cs x rest) cs xs r)
    (hr : r.head? = some close) (h' : Listed Item cs ys r') (hr' : r'.head? = some close) :
    xs = ys ∧ r = r' := by
  have hcomma : ∀ {cs}, Before [',', close] (',' :: cs) := before_cons List.mem_cons_self
  have hmark : ∀ {cs : List Char}, cs.head? = some close → Before [',', close] cs := by
    intro cs hcs c hc
    rw [Option.some.inj (hc.symm.trans hcs)]
    exact List.mem_cons_of_mem _ List.mem_cons_self
  induction h generalizing ys r' with
  | none =>
    cases h' with
    | none => exact ⟨rfl, rfl⟩
    | one item => exact absurd hr (hopen item)
    | more item => exact absurd hr (hopen item)
  | one item =>
    cases h' with
    | none => exact absurd hr' (hopen item.1)
    | one item' =>
      obtain ⟨rfl, rfl⟩ := item.2 (hmark hr) _ _ item' (hmark hr')
      exact ⟨rfl, rfl⟩
    | more item' =>
      obtain ⟨-, rfl⟩ := item.2 (hmark hr) _ _ item' hcomma
      exact absurd (Option.some.inj hr).symm hclose
  | more item _ ih =>
    cases h' with
    | none => exact absurd hr' (hopen item.1)
    | one item' =>
      obtain ⟨-, rfl⟩ := item.2 hcomma _ _ item' (hmark hr')
      exact absurd (Option.some.inj hr').symm hclose
    | more item' others' =>
      obtain ⟨rfl, hmid⟩ := item.2 hcomma _ _ item' hcomma
      cases hmid
      obtain ⟨rfl, rfl⟩ := ih hr others' hr'
      exact ⟨rfl, rfl⟩

/-- A list of one sort of items is one of another that takes them all. -/
theorem Listed.imp {α : Type} {P Q : List Char → α → List Char → Prop} {xs : List α}
    {rest : List Char} (h : Listed P cs xs rest) (f : ∀ cs x rest, P cs x rest → Q cs x rest) :
    Listed Q cs xs rest := by
  induction h with
  | none => exact .none
  | one item => exact .one (f _ _ _ item)
  | more item _ ih => exact .more (f _ _ _ item) ih

/-- The names of the parameters of a lambda are pinned. -/
theorem Listed.unique_words {ns ns' : List String} {r r' : List Char}
    (h : Listed Word cs ns ('|' :: r)) (h' : Listed Word cs ns' ('|' :: r')) :
    ns = ns' ∧ r = r' := by
  have hended : ∀ {cs}, Before [',', '|'] cs → Ended cs := fun h => h.ended rfl
  obtain ⟨rfl, hrest⟩ := Listed.unique (by decide) (fun h => h.starts.head_ne rfl)
    (h.imp fun _ _ _ item =>
      ⟨item, fun hr _ _ item' hr' => item.unique item' (hended hr) (hended hr')⟩) rfl h' rfl
  exact ⟨rfl, List.tail_eq_of_cons_eq hrest⟩

/-! ## Expressions -/

/-- The characters a primary starts with. -/
def opens (c : Char) : Bool := startsName c || startsLiteral c || c == '('

section

variable {o target : Outline} {rest : List Char}

theorem Primary.starts (h : Primary cs o rest) : Starts opens cs := by
  cases h with
  | word word => exact word.starts.imp fun c hc => by simp [opens, hc]
  | literal literal => exact literal.starts.imp fun c hc => by simp [opens, hc]
  | parens => exact ⟨'(', rfl, rfl⟩

theorem Chain.starts (h : Chain cs o rest) : Starts opens cs := by
  cases h with
  | steps primary => exact primary.starts

theorem Expression.starts (h : Expression cs o rest) :
    Starts (fun c => opens c || c == '-' || c == '|') cs := by
  cases h with
  | operation first => exact first.starts.imp fun c hc => by simp [hc]
  | negation => exact ⟨'-', rfl, rfl⟩
  | lambda => exact ⟨'|', rfl, rfl⟩

theorem Second.before (h : Second target cs o rest) (hrest : Before closings rest) :
    Before breaks cs := by
  cases h with
  | none => exact hrest.mono (List.subset_cons_self _ _)
  | some text =>
    rw [text]
    exact before_cons List.mem_cons_self

theorem Steps.before (h : Steps target cs o rest) (hrest : Before breaks rest) :
    Before stops cs := by
  cases h with
  | nil => exact hrest.mono (List.subset_cons_of_subset _ (List.subset_cons_self _ _))
  | cons step =>
    cases step with
    | field => exact before_cons (by decide)
    | offset => exact before_cons (by decide)
    | mapOffset => exact before_cons (by decide)

/-- What goes on is no end. -/
theorem Step.not_before {u : Outline} (h : Step target cs u rest) : ¬ Before breaks cs := by
  intro hcs
  cases h with
  | field => exact hcs.elim (by decide)
  | offset => exact hcs.elim (by decide)
  | mapOffset => exact hcs.elim (by decide)

theorem Named.ended {n : String} (h : Named n cs o rest) (hrest : Before stops rest) :
    Ended cs := by
  cases h with
  | self => exact hrest.ended rfl
  | call => rintro _ ⟨⟩; rfl
  | list => rintro _ ⟨⟩; rfl

end

theorem operator_append_inj {op op' : BinaryOp} {r r' : List Char}
    (h : (operator op).toList ++ ' ' :: r = (operator op').toList ++ ' ' :: r') :
    op = op' ∧ r = r' := by
  cases op <;> cases op' <;> simp_all [operator]

theorem startsName_of_isDigit {c : Char} (hc : isDigit c = true) : startsName c = false := by
  have hle : c.val ≤ '9'.val := of_decide_eq_true (Bool.and_eq_true_iff.mp hc).2
  have hupper : c.isUpper = false := decide_eq_false fun h =>
    absurd (UInt32.le_trans h.1 hle) (by decide)
  have hlower : c.isLower = false := Bool.and_eq_false_imp.mpr fun h =>
    absurd (UInt32.le_trans (a := 'a'.val) (of_decide_eq_true h) hle) (by decide)
  have hunderscore : (c == '_') = false := beq_false_of_ne (Numeral.isDigit_ne hc rfl)
  have halpha : c.isAlpha = false := Bool.or_eq_false_iff.mpr ⟨hupper, hlower⟩
  exact Bool.or_eq_false_iff.mpr ⟨halpha, hunderscore⟩

/-- A name starts as no literal does. -/
theorem Word.not_unsigned {n : String} {o : Outline} {r r' : List Char} (h : Word cs n r) :
    ¬ Unsigned cs o r' := fun h' =>
  h'.starts.disjoint h.starts fun _ hc => (Bool.or_eq_true_iff.mp hc).elim startsName_of_isDigit
    fun hquote => by rw [beq_iff_eq.mp hquote]; rfl

mutual

/-- **An expression is pinned** by what may stand behind it. -/
theorem Expression.unique : ∀ {cs o r o' r'}, Expression cs o r → Expression cs o' r' →
    Before closings r → Before closings r' → o = o' ∧ r = r'
  | _, _, _, _, _, .operation first second, h, hr, hr' => by
      cases h with
      | operation first' second' =>
        -- behind the first operand stands a blank, or what stands behind the whole
        obtain ⟨rfl, rfl⟩ := first.unique first' (second.before hr) (second'.before hr')
        exact second.unique second' hr hr'
      | negation => exact (first.starts.elim rfl).elim
      | lambda => exact (first.starts.elim rfl).elim
  | _, _, _, _, _, .negation operand, h, hr, hr' => by
      cases h with
      | operation first => exact (first.starts.elim rfl).elim
      | negation operand' =>
        obtain ⟨rfl, rfl⟩ := operand.unique operand' (hr.mono (List.subset_cons_self _ _))
          (hr'.mono (List.subset_cons_self _ _))
        exact ⟨rfl, rfl⟩
  | _, _, _, _, _, .lambda list body, h, hr, hr' => by
      cases h with
      | operation first => exact (first.starts.elim rfl).elim
      | lambda list' body' =>
        obtain ⟨rfl, hmid⟩ := list.unique_words list'
        cases hmid
        obtain ⟨rfl, rfl⟩ := body.unique body' hr hr'
        exact ⟨rfl, rfl⟩
termination_by structural _ _ _ _ _ h => h

theorem Second.unique : ∀ {left cs o r o' r'}, Second left cs o r → Second left cs o' r' →
    Before closings r → Before closings r' → o = o' ∧ r = r'
  | _, _, _, _, _, _, .none, h, hr, _ => by
      cases h with
      | none => exact ⟨rfl, rfl⟩
      | some text =>
        rw [text] at hr
        exact (hr.elim (by decide)).elim
  | _, _, _, _, _, _, .some text operand, h, hr, hr' => by
      cases h with
      | none =>
        rw [text] at hr'
        exact (hr'.elim (by decide)).elim
      | some text' operand' =>
        obtain ⟨rfl, rfl⟩ := operator_append_inj (List.tail_eq_of_cons_eq (text.symm.trans text'))
        obtain ⟨rfl, rfl⟩ := operand.unique operand' (hr.mono (List.subset_cons_self _ _))
          (hr'.mono (List.subset_cons_self _ _))
        exact ⟨rfl, rfl⟩
termination_by structural _ _ _ _ _ _ h => h

/-- **An operand is pinned** by what may stand behind it. -/
theorem Chain.unique : ∀ {cs o r o' r'}, Chain cs o r → Chain cs o' r' →
    Before breaks r → Before breaks r' → o = o' ∧ r = r'
  | _, _, _, _, _, .steps primary steps, .steps primary' steps', hr, hr' => by
      obtain ⟨rfl, rfl⟩ := primary.unique primary' (steps.before hr) (steps'.before hr')
      exact steps.unique steps' hr hr'
termination_by structural _ _ _ _ _ h => h

theorem Steps.unique : ∀ {target cs o r o' r'}, Steps target cs o r → Steps target cs o' r' →
    Before breaks r → Before breaks r' → o = o' ∧ r = r'
  | _, _, _, _, _, _, .nil, h, hr, _ => by
      cases h with
      | nil => exact ⟨rfl, rfl⟩
      | cons step => exact absurd hr step.not_before
  | _, _, _, _, _, _, .cons step others, h, hr, hr' => by
      cases h with
      | nil => exact absurd hr' step.not_before
      | cons step' others' =>
        obtain ⟨rfl, rfl⟩ := step.unique step' (others.before hr) (others'.before hr')
        exact others.unique others' hr hr'
termination_by structural _ _ _ _ _ _ h => h

theorem Step.unique : ∀ {target cs o r o' r'}, Step target cs o r → Step target cs o' r' →
    Before stops r → Before stops r' → o = o' ∧ r = r'
  | _, _, _, _, _, _, .field word, h, hr, hr' => by
      cases h with
      | field word' =>
        obtain ⟨rfl, rfl⟩ := word.unique word' (hr.ended rfl) (hr'.ended rfl)
        exact ⟨rfl, rfl⟩
  | _, _, _, _, _, _, .offset index text, h, _, _ => by
      have hbreak : ∀ {mid rest}, mid = " as usize]".toList ++ rest → Before breaks mid := by
        rintro _ rest rfl
        exact before_cons List.mem_cons_self
      cases h with
      | offset index' text' =>
        obtain ⟨rfl, hmid⟩ := index.unique index' (hbreak text) (hbreak text')
        exact ⟨rfl, List.append_cancel_left (text.symm.trans (hmid.trans text'))⟩
      | mapOffset => exact (index.starts.elim rfl).elim
  | _, _, _, _, _, _, .mapOffset index, h, _, _ => by
      cases h with
      | offset index' => exact (index'.starts.elim rfl).elim
      | mapOffset index' =>
        obtain ⟨rfl, hrest⟩ :=
          index.unique index' (before_cons (by decide)) (before_cons (by decide))
        exact ⟨rfl, List.tail_eq_of_cons_eq hrest⟩
termination_by structural _ _ _ _ _ _ h => h

theorem Primary.unique : ∀ {cs o r o' r'}, Primary cs o r → Primary cs o' r' →
    Before stops r → Before stops r' → o = o' ∧ r = r'
  | _, _, _, _, _, .word word named, h, hr, hr' => by
      cases h with
      | word word' named' =>
        obtain ⟨rfl, rfl⟩ := word.unique word' (named.ended hr) (named'.ended hr')
        exact named.unique named' hr hr'
      | literal literal => exact absurd literal word.not_unsigned
      | parens => exact (word.starts.elim rfl).elim
  | _, _, _, _, _, .literal literal, h, _, _ => by
      cases h with
      | word word => exact absurd literal word.not_unsigned
      | literal literal' => exact literal.unique literal'
      | parens => exact (literal.starts.elim rfl).elim
  | _, _, _, _, _, .parens inner, h, _, _ => by
      cases h with
      | word word => exact (word.starts.elim rfl).elim
      | literal literal => exact (literal.starts.elim rfl).elim
      | parens inner' =>
        obtain ⟨rfl, hrest⟩ :=
          inner.unique inner' (before_cons (by decide)) (before_cons (by decide))
        exact ⟨rfl, List.tail_eq_of_cons_eq hrest⟩
termination_by structural _ _ _ _ _ h => h

theorem Named.unique : ∀ {n cs o r o' r'}, Named n cs o r → Named n cs o' r' →
    Before stops r → Before stops r' → o = o' ∧ r = r'
  | _, _, _, _, _, _, .self, h, hr, _ => by
      cases h with
      | self => exact ⟨rfl, rfl⟩
      | call => exact (hr.elim (by decide)).elim
      | list => exact (hr.elim (by decide)).elim
  | _, _, _, _, _, _, .call list, h, _, hr' => by
      cases h with
      | self => exact (hr'.elim (by decide)).elim
      | call list' =>
        obtain ⟨hitems, hrest⟩ := Listed.unique (by decide)
          (fun h => h.starts.head_ne rfl) (list.unique_items (by decide)) rfl list' rfl
        cases hitems
        exact ⟨rfl, List.tail_eq_of_cons_eq hrest⟩
  | _, _, _, _, _, _, .list list, h, _, hr' => by
      cases h with
      | self => exact (hr'.elim (by decide)).elim
      | list list' =>
        obtain ⟨rfl, hrest⟩ := Listed.unique (by decide)
          (fun h => h.starts.head_ne rfl) (list.unique_items (by decide)) rfl list' rfl
        exact ⟨rfl, List.tail_eq_of_cons_eq hrest⟩
termination_by structural _ _ _ _ _ _ h => h

theorem Listed.unique_items : ∀ {cs os r}, Listed Expression cs os r → ∀ {close},
    [',', close] ⊆ closings →
    Listed (fun cs o r => Expression cs o r ∧ Pinned Expression [',', close] cs o r) cs os r
  | _, _, _, .none, _, _ => .none
  | _, _, _, .one item, _, hclose =>
      .one ⟨item, fun hr _ _ item' hr' => item.unique item' (hr.mono hclose) (hr'.mono hclose)⟩
  | _, _, _, .more item others, _, hclose =>
      .more ⟨item, fun hr _ _ item' hr' => item.unique item' (hr.mono hclose) (hr'.mono hclose)⟩
        (others.unique_items hclose)
termination_by structural _ _ _ h => h

end

end Rust

end Ascription
