import Ascription.Proofs.Expr.Text
import Ascription.Proofs.Token.Literals

/-!
# Proofs/Expr/ReadsBack — every form reads back when its parts do

One lemma for each form.  The words behind a part are known when the part is written, so each lemma
goes from the end of the text to its start, and then follows the grammar from start to end.
-/

namespace Ascription

open Grammar Lexer

theorem atDeclaration_of_name_mark {p s s₁ : Span} {n : String} {m : Punct} {ts : List Token} :
    Place.atDeclaration ⟨p, ⟨.name n, s⟩ :: ⟨.punct m, s₁⟩ :: ts⟩ = false := by
  rw [Place.atDeclaration]
  split
  case h_1 heq => cases heq
  case h_2 => rfl

namespace Expr

variable {r : Registry} {T : Ty → Prop} {span : Span} {a b : Expr} {n : String} {t : Ty}

attribute [local simp] text

theorem readsBack_get (hn : IsName n.toList)
    (ht : Renders Breaks NotLess TypeName t.text fun w => r.resolve w = .ok t) :
    ReadsBack r (.get span n t) := by
  intro rest after hq ha hrest
  obtain ⟨ks, hlex, hread⟩ := ht hq.1 ha.1 hrest
  have hname := Lexes.name hn (breaks_cons rfl) (.char ':' .colon rfl trivial hlex)
  refine ⟨.name n :: .punct .colon :: ks, ?_, fun c hc => ?_⟩
  · simpa using hname
  · obtain ⟨p, s, ts, rfl, hts⟩ := Place.kinds_eq_cons hc
    obtain ⟨s₁, ts₁, rfl, hts₁⟩ := Place.kinds_cons hts
    obtain ⟨w, c', hw, hc', hres⟩ := hread _ hts₁
    exact ⟨_, c', .of_primary atDeclaration_of_name_mark (.annotated hw), hc', .get hres⟩

/-! ## Literals -/

theorem not_digit_of_reserved {c : Char} (h : isReserved c = true) : Numeral.isDigit c = false := by
  simp only [isReserved, Bool.or_eq_true, beq_iff_eq] at h
  repeat
    obtain h | rfl := h
    rotate_left
    · rfl
  exact not_digit_of_blank h

/-- A literal of one word. -/
theorem readsBack_word {value : Literal} {k : TokenKind} (hk : ∀ n, k ≠ .name n)
    (hprimary : ∀ {p s ts}, Primary ⟨p, ⟨k, s⟩ :: ts⟩ (.literal s value) ⟨s, ts⟩)
    (hlex : ∀ {rest after}, Behind (.literal span value) rest → Lexes rest after →
      Lexes (value.text.toList ++ rest) (k :: after)) : ReadsBack r (.literal span value) := by
  intro rest after hq _ hrest
  refine ⟨k :: after, hlex hq hrest, fun c hc => ?_⟩
  obtain ⟨p, s, ts, rfl, hts⟩ := Place.kinds_eq_cons hc
  have hstart : Place.atDeclaration ⟨p, ⟨k, s⟩ :: ts⟩ = false := by
    rw [Place.atDeclaration]
    split
    case h_1 heq =>
      cases heq
      exact absurd rfl (hk _)
    case h_2 => rfl
  exact ⟨_, _, .of_primary hstart hprimary, hts, .literal⟩

theorem readsBack_int {m : Int64} : ReadsBack r (.literal span (.int m)) := by
  refine readsBack_word (k := .int m) nofun .int fun hq hrest =>
    .cons (word_int fun c hc => ?_) hrest
  refine ⟨not_digit_of_reserved (hq.1 c hc), ?_⟩
  rintro rfl
  exact hq.2 rfl hc

theorem readsBack_float {x : Binary64} (hx : x.isFinite = true) :
    ReadsBack r (.literal span (.float x)) :=
  readsBack_word (k := .float x) nofun .float fun hq hrest =>
    .cons (word_float hx fun c hc => not_digit_of_reserved (hq.1 c hc)) hrest

theorem readsBack_string {s : String} (hs : '\"' ∉ s.toList) :
    ReadsBack r (.literal span (.string s)) :=
  readsBack_word (k := .string s) nofun .string fun _ hrest => .cons (word_string hs) hrest

/-! ## Operators -/

/-- Operators stand between blanks. -/
theorem lexes_operator (op : BinaryOp) {rest : List Char} {ks : List TokenKind}
    (h : Lexes rest ks) : ∃ k, Parser.operator? (some k) = some op ∧ k ≠ .punct .less ∧
      Lexes (' ' :: (op.text.toList ++ ' ' :: rest)) (k :: ks) := by
  cases op with
  | eq => exact ⟨.punct .tripleEquals, rfl, by decide,
    (Lexes.mark (p := .tripleEquals) trivial h.space).space⟩
  | or => exact ⟨.punct .doublePipe, rfl, by decide,
    (Lexes.mark (p := .doublePipe) trivial h.space).space⟩
  | gt => exact ⟨.punct .greater, rfl, by decide,
    (Lexes.mark (p := .greater) trivial h.space).space⟩
  | subtract =>
    have hclear : Clear .minus (' ' :: rest) := by
      rintro c ⟨⟩
      exact ⟨by decide, rfl⟩
    exact ⟨.punct .minus, rfl, by decide, (Lexes.mark (p := .minus) hclear h.space).space⟩

theorem readsBack_binary {op : BinaryOp} (hrule : (Expr.binary span op a b).Ruled T)
    (ha : ReadsBack r a) (hb : ReadsBack r b) : ReadsBack r (.binary span op a b) := by
  intro rest after hq hafter hrest
  obtain ⟨ks, hlex, hread⟩ := hb.operand ⟨hq.1, hq.2 rfl⟩ hafter.1 hrest
  obtain ⟨k, hop, hless, hoperator⟩ := lexes_operator op hlex
  obtain ⟨ks', hlex', hread'⟩ := ha.left (apart_cons rfl (by decide)) (notLess_cons hless) hoperator
  refine ⟨ks', ?_, fun c hc => ?_⟩
  · simpa using hlex'
  · obtain ⟨u, c₁, ⟨hstart, w, c₀, hw, hoperators⟩, hc₁, hu⟩ := hread' c hc
    obtain ⟨p, s, ts, rfl, hts⟩ := Place.kinds_eq_cons hc₁
    obtain ⟨v, c₂, ⟨_, hoperand⟩, hc₂, hv⟩ := hread _ hts
    exact ⟨_, c₂, ⟨hstart, w, c₀, hw, hoperators.snoc hop hoperand rfl⟩, hc₂, .binary hrule hu hv⟩

theorem readsBack_negative (hrule : (Expr.negative span a).Ruled T) (ha : ReadsBack r a) :
    ReadsBack r (.negative span a) := by
  intro rest after hq hafter hrest
  obtain ⟨ks, hlex, hread⟩ := ha.operand ⟨hq.1, hq.2 rfl⟩ hafter.1 hrest
  have hclear :
      Clear .minus (' ' :: (parenthesized (a.isBinary || a.isLambda) a.text).toList ++ rest) := by
    rintro c ⟨⟩
    exact ⟨by decide, rfl⟩
  refine ⟨.punct .minus :: ks, ?_, fun c hc => ?_⟩
  · simpa using Lexes.char '-' .minus rfl hclear hlex.space
  · obtain ⟨p, s, ts, rfl, hts⟩ := Place.kinds_eq_cons hc
    obtain ⟨u, c', ⟨_, hoperand⟩, hc', hu⟩ := hread _ hts
    exact ⟨_, c', ⟨rfl, .negation hoperand⟩, hc', .negative hrule hu⟩

/-! ## Steps -/

theorem readsBack_call {args : List Expr} (hn : IsName n.toList)
    (ht : Renders Breaks NotLess TypeName t.text fun w => r.resolve w = .ok t)
    (ha : ReadsBack r a) (hargs : ∀ e ∈ args, ReadsBack r e) :
    ReadsBack r (.call span a n t args) := by
  intro rest after hq hafter hrest
  obtain ⟨ks, hlex, hread⟩ := renders_all hargs (apart_cons rfl (by decide))
    (closed_cons (by decide)) (.char ')' .rightParen rfl trivial hrest)
  obtain ⟨ks₁, hlex₁, hread₁⟩ := ht (breaks_cons rfl) (notLess_cons (by decide))
    (.char '(' .leftParen rfl trivial hlex)
  have hname := Lexes.name hn (breaks_cons rfl) (.char ':' .colon rfl trivial hlex₁)
  obtain ⟨ks₂, hlex₂, hread₂⟩ := ha.target (breaks_cons rfl) (notLess_cons (by decide))
    (.char '.' .dot rfl trivial hname)
  refine ⟨ks₂, ?_, fun c hc => ?_⟩
  · simpa using hlex₂
  · obtain ⟨u, c₁, hchain, hc₁, hu⟩ := hread₂ c hc
    obtain ⟨p, s, ts, rfl, hts⟩ := Place.kinds_eq_cons hc₁
    obtain ⟨s₁, ts₁, rfl, hts₁⟩ := Place.kinds_cons hts
    obtain ⟨s₂, ts₂, rfl, hts₂⟩ := Place.kinds_cons hts₁
    obtain ⟨w, c₂, hw, hc₂, hres⟩ := hread₁ _ hts₂
    obtain ⟨p', s₃, ts₃, rfl, hts₃⟩ := Place.kinds_eq_cons hc₂
    obtain ⟨us, c₃, hlist, hc₃, hus⟩ := hread _ hts₃
    obtain ⟨p'', s₄, ts₄, rfl, hts₄⟩ := Place.kinds_eq_cons hc₃
    exact ⟨_, _, hchain.step (.call hw hlist), hts₄, .call hres hu hus⟩

theorem readsBack_field (hrule : (Expr.field span a n t).Ruled T) (hn : IsName n.toList)
    (ht : Renders Breaks NotLess TypeName t.text fun w => r.resolve w = .ok t)
    (ha : ReadsBack r a) : ReadsBack r (.field span a n t) := by
  intro rest after hq hafter hrest
  obtain ⟨ks, hlex, hread⟩ := ht hq.1 hafter.1 hrest
  have hname := Lexes.name hn (breaks_cons rfl) (.char ':' .colon rfl trivial hlex)
  obtain ⟨ks₁, hlex₁, hread₁⟩ := ha.target (breaks_cons rfl) (notLess_cons (by decide))
    (.char '.' .dot rfl trivial hname)
  refine ⟨ks₁, ?_, fun c hc => ?_⟩
  · simpa using hlex₁
  · obtain ⟨u, c₁, hchain, hc₁, hu⟩ := hread₁ c hc
    obtain ⟨p, s, ts, rfl, hts⟩ := Place.kinds_eq_cons hc₁
    obtain ⟨s₁, ts₁, rfl, hts₁⟩ := Place.kinds_cons hts
    obtain ⟨s₂, ts₂, rfl, hts₂⟩ := Place.kinds_cons hts₁
    obtain ⟨w, c₂, hw, hc₂, hres⟩ := hread _ hts₂
    exact ⟨_, c₂, hchain.step (.annotated hw), hc₂, .field hrule hres hu⟩

theorem readsBack_offset (hrule : (Expr.offset span a b).Ruled T) (ha : ReadsBack r a)
    (hb : ReadsBack r b) : ReadsBack r (.offset span a b) := by
  intro rest after hq hafter hrest
  obtain ⟨ks, hlex, hread⟩ := hb.expression (apart_cons rfl (by decide)) (closed_cons (by decide))
    (.char ']' .rightBracket rfl trivial hrest)
  obtain ⟨ks₁, hlex₁, hread₁⟩ := ha.target (breaks_cons rfl) (notLess_cons (by decide))
    (.char '[' .leftBracket rfl trivial hlex)
  refine ⟨ks₁, ?_, fun c hc => ?_⟩
  · simpa using hlex₁
  · obtain ⟨u, c₁, hchain, hc₁, hu⟩ := hread₁ c hc
    obtain ⟨p, s, ts, rfl, hts⟩ := Place.kinds_eq_cons hc₁
    obtain ⟨v, c₂, hkey, hc₂, hv⟩ := hread _ hts
    obtain ⟨p', s₁, ts₁, rfl, hts₁⟩ := Place.kinds_eq_cons hc₂
    exact ⟨_, _, hchain.step (.offset hkey), hts₁, .offset hrule hu hv⟩

/-! ## Lists and structs -/

theorem readsBack_list {items : List Expr} (hrule : (Expr.list span items).Ruled T)
    (hitems : ∀ e ∈ items, ReadsBack r e) : ReadsBack r (.list span items) := by
  intro rest after hq hafter hrest
  obtain ⟨ks, hlex, hread⟩ := renders_all hitems (apart_cons rfl (by decide))
    (closed_cons (by decide)) (.char ']' .rightBracket rfl trivial hrest)
  refine ⟨.punct .leftBracket :: ks, ?_, fun c hc => ?_⟩
  · simpa using Lexes.char '[' .leftBracket rfl trivial hlex
  · obtain ⟨p, s, ts, rfl, hts⟩ := Place.kinds_eq_cons hc
    obtain ⟨us, c', hlist, hc', hus⟩ := hread _ hts
    obtain ⟨p', s₁, ts₁, rfl, hts₁⟩ := Place.kinds_eq_cons hc'
    exact ⟨_, _, .of_primary rfl (.list hlist), hts₁, .list hrule hus⟩

/-- A field of a struct literal. -/
theorem renders_field {f : String × Expr} (hn : IsName f.1.toList)
    (ht : ∃ t, Phrase.typed f.2 = .ok t) (hf : ReadsBack r f.2) :
    Renders Apart Closed Field (f.1 ++ ": " ++ f.2.text) (ReadsField r f) := by
  intro rest after hq hafter hrest
  obtain ⟨ks, hlex, hread⟩ := hf.expression hq hafter hrest
  have hname := Lexes.name hn (breaks_cons rfl) (.char ':' .colon rfl trivial hlex.space)
  refine ⟨.name f.1 :: .punct .colon :: ks, by simpa using hname, fun c hc => ?_⟩
  obtain ⟨p, s, ts, rfl, hts⟩ := Place.kinds_eq_cons hc
  obtain ⟨s₁, ts₁, rfl, hts₁⟩ := Place.kinds_cons hts
  obtain ⟨u, c', hu, hc', hreads⟩ := hread _ hts₁
  exact ⟨_, c', .field hu, hc', rfl, hreads, ht⟩

theorem readsBack_struct {fs : List (String × Expr)} (hrule : (Expr.struct span fs).Ruled T)
    (hnames : ∀ f ∈ fs, IsName f.1.toList) (hfs : ∀ f ∈ fs, ReadsBack r f.2) :
    ReadsBack r (.struct span fs) := by
  intro rest after hq hafter hrest
  have hfields : Renders Apart Closed (Listed Field) (", ".intercalate (textFields fs))
      (ReadsFields r fs) := by
    rw [textFields_eq_map]
    exact renders_listed .nil .cons (fun _ => apart_cons rfl (by decide))
      (fun _ => closed_cons (by decide)) fun f hf =>
        renders_field (hnames f hf) (hrule.2 f hf) (hfs f hf)
  obtain ⟨ks, hlex, hread⟩ := hfields (apart_cons rfl (by decide)) (closed_cons (by decide))
    (.char '\x7d' .rightBrace rfl trivial hrest)
  refine ⟨.punct .leftBrace :: ks, ?_, fun c hc => ?_⟩
  · simpa using Lexes.char '\x7b' .leftBrace rfl trivial hlex
  · obtain ⟨p, s, ts, rfl, hts⟩ := Place.kinds_eq_cons hc
    obtain ⟨us, c', hlist, hc', hus⟩ := hread _ hts
    obtain ⟨p', s₁, ts₁, rfl, hts₁⟩ := Place.kinds_eq_cons hc'
    exact ⟨_, _, .of_primary rfl (.struct hlist), hts₁, .struct hrule.1 hus⟩

/-! ## Lambdas -/

/-- The parameters of a lambda. -/
theorem renders_params {params : List String} (h : ∀ n ∈ params, IsName n.toList) :
    Renders Breaks (fun _ => True) (Listed Name) (", ".intercalate params) fun xs =>
      xs.map Prod.fst = params := by
  have hname : ∀ n ∈ params, Renders Breaks (fun _ => True) Name (id n) fun x => x.1 = n := by
    intro n hn rest after hq _ hrest
    refine ⟨.name n :: after, .name (h n hn) hq hrest, fun c hc => ?_⟩
    obtain ⟨p, s, ts, rfl, hts⟩ := Place.kinds_eq_cons hc
    exact ⟨_, _, .name, hts, rfl⟩
  have hlist := renders_listed (L := fun ns xs => xs.map Prod.fst = ns) rfl
    (fun hx hxs => by rw [List.map_cons, hx, hxs]) (fun _ => breaks_cons rfl)
    (fun _ => trivial) hname
  rwa [List.map_id] at hlist

/-- The bar that opens a lambda is no part of an operator. -/
theorem clear_params {ns : List String} {rest : List Char} (h : IsName n.toList) :
    Clear .pipe ((", ".intercalate (n :: ns)).toList ++ rest) := by
  obtain ⟨c, cs, hcs, hc, -⟩ := h
  have hhead : ∃ cs', (", ".intercalate (n :: ns)).toList = c :: cs' := by
    cases ns with
    | nil => exact ⟨cs, by rw [String.intercalate_singleton, hcs]⟩
    | cons m ms =>
      rw [String.intercalate_cons_cons, String.toList_append, String.toList_append, hcs]
      exact ⟨_, rfl⟩
  obtain ⟨cs', hhead⟩ := hhead
  rw [hhead]
  rintro d ⟨⟩ rfl
  cases hc

/-- A lambda reaches as far as it can, so its body ends with it. -/
theorem readsBack_lambda {params : List String} (hparams : ∀ n ∈ params, IsName n.toList)
    (ha : ReadsBack r a) : ReadsBack r (.lambda span params a) := by
  intro rest after hq hafter hrest
  have hclosed : Closed after := hafter.2 rfl
  obtain ⟨ks, hlex, hread⟩ := ha.expression ⟨hq.1, hq.2 rfl⟩ hclosed hrest
  cases params with
  | nil =>
    refine ⟨.punct .doublePipe :: ks, ?_, fun c hc => ?_⟩
    · have hmark := Lexes.mark (p := .doublePipe) trivial hlex.space
      simpa [Punct.text] using hmark
    · obtain ⟨p, s, ts, rfl, hts⟩ := Place.kinds_eq_cons hc
      obtain ⟨u, c', hu, hc', hreads⟩ := hread _ hts
      subst hc'
      exact ⟨_, c', .of_primary rfl (.thunk hu hclosed.settled), rfl, .lambda hreads⟩
  | cons n ns =>
    have hclear : Clear .pipe (' ' :: (a.text.toList ++ rest)) := by
      rintro c ⟨⟩
      decide
    obtain ⟨ks₁, hlex₁, hread₁⟩ := renders_params hparams (breaks_cons rfl) trivial
      (.char '|' .pipe rfl hclear hlex.space)
    have hopen := @clear_params n ns ('|' :: ' ' :: (a.text.toList ++ rest))
      (hparams n List.mem_cons_self)
    refine ⟨.punct .pipe :: ks₁, ?_, fun c hc => ?_⟩
    · simpa using Lexes.char '|' .pipe rfl hopen hlex₁
    · obtain ⟨p, s, ts, rfl, hts⟩ := Place.kinds_eq_cons hc
      obtain ⟨xs, c₁, hlist, hc₁, hxs⟩ := hread₁ _ hts
      obtain ⟨p', s₁, ts₁, rfl, hts₁⟩ := Place.kinds_eq_cons hc₁
      obtain ⟨u, c', hu, hc', hreads⟩ := hread _ hts₁
      subst hc'
      refine ⟨_, c', .of_primary rfl (.lambda hlist hu hclosed.settled), rfl, ?_⟩
      rw [hxs]
      exact .lambda hreads

end Expr

end Ascription
