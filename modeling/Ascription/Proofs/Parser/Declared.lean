import Ascription.Proofs.Expr.Decidable
import Ascription.Proofs.Parser.RoundTrip
import Ascription.Proofs.Phrase.Elaborate.Like
import Ascription.Proofs.Phrase.Grammar.Like
import Ascription.Proofs.Token.Words

/-!
# Proofs/Parser/Declared — declared by the host or in the text

    declare n₁: T₁ … declare nₖ: Tₖ text   over no variables
                                    text   over n₁: T₁ … nₖ: Tₖ

The declarations before a text fill the table that a host would fill, and the words of the
text stay what they are behind them.  So both texts are read or neither is, and their trees
differ in their spans only.
-/

namespace Ascription

open Grammar Lexer Phrase

/-- Variables declared by a host, one after the other. -/
def Declarations.declareEach (ds : Declarations) (vars : List (String × Ty)) :
    Except TypeError Declarations :=
  vars.foldlM (fun ds d => ds.declareSynthetic d.1 d.2) ds

/-- The text of a declaration. -/
def declarationText (name : String) (t : Ty) : String := "declare " ++ name ++ ": " ++ t.text

/-- Declarations in front of a text. -/
def withDeclarations : List (String × Ty) → String → String
  | [], text => text
  | (name, t) :: vars, text => declarationText name t ++ " " ++ withDeclarations vars text

namespace Declarations

theorem declare_of_nodup {ds : Declarations} {n : String} {t : Ty} {vars : List (String × Ty)}
    (h : ((ds.types ++ (n, t) :: vars).map Prod.fst).Nodup) (span : Span) :
    ds.declare n t span = .ok (ds ++ [⟨n, t, span⟩]) ∧
      (types (ds ++ [⟨n, t, span⟩]) ++ vars) = ds.types ++ (n, t) :: vars := by
  have hnew : n ∉ ds.map Declaration.name := by
    intro hn
    rw [List.map_append, List.nodup_append] at h
    exact h.2.2 n (by simpa [types] using hn) n List.mem_cons_self rfl
  exact ⟨declare_eq_ok.mpr ⟨find?_eq_none.mpr hnew, rfl⟩, by simp [types]⟩

/-- **A host can declare variables of different names.** -/
theorem declareEach_of_nodup {vars : List (String × Ty)} {ds : Declarations}
    (h : ((ds.types ++ vars).map Prod.fst).Nodup) :
    ∃ ds', ds.declareEach vars = .ok ds' ∧ ds'.types = ds.types ++ vars := by
  induction vars generalizing ds with
  | nil => exact ⟨ds, rfl, (List.append_nil _).symm⟩
  | cons d vars ih =>
    obtain ⟨hdeclare, htypes⟩ := declare_of_nodup h .synthetic
    rw [← htypes] at h
    obtain ⟨ds', hds', htypes'⟩ := ih h
    exact ⟨ds', Except.bind_eq_ok.mpr ⟨_, hdeclare, hds'⟩, htypes'.trans htypes⟩

end Declarations

/-! ## The words of declarations -/

/-- A declaration in front of a place. -/
inductive Grammar.Declared (n : String) : Place → TypeExpr → Place → Prop
  | declared {p s s₁ s₂ ts w c} (type : TypeName ⟨s₂, ts⟩ w c) :
      Declared n ⟨p, ⟨.name "declare", s⟩ :: ⟨.name n, s₁⟩ :: ⟨.punct .colon, s₂⟩ :: ts⟩ w c

/-- Declarations in front of a place, with the types they are resolved to. -/
inductive Grammar.Declares (r : Registry) : Place → List (String × Ty) → Place → Prop
  | nil {c} : Declares r c [] c
  | cons {c n w t c' vars c''} (declared : Declared n c w c') (type : r.resolve w = .ok t)
      (others : Declares r c' vars c'') : Declares r c ((n, t) :: vars) c''

section

variable {r : Registry} {n : String} {t : Ty} {vars : List (String × Ty)} {rest : List Char}
  {after : List TokenKind}

/-- The words of a declaration. -/
theorem lexes_declaration {P : TypeExpr → Prop} (hn : IsName n.toList)
    (ht : Renders Breaks NotLess TypeName t.text P) (hq : Breaks rest) (ha : NotLess after)
    (hrest : Lexes rest after) :
    ∃ ks, Lexes ((declarationText n t).toList ++ rest) (.name "declare" :: ks) ∧
      ∀ c : Place, c.kinds = .name "declare" :: ks →
        ∃ w c', Declared n c w c' ∧ c'.kinds = after ∧ P w := by
  obtain ⟨ks, hlex, hread⟩ := ht hq ha hrest
  have hcolon := Lexes.name hn (breaks_cons rfl) (.char ':' .colon rfl trivial hlex.space)
  have hdeclare := Lexes.name (n := "declare") (by decide) (breaks_cons rfl) hcolon.space
  refine ⟨.name n :: .punct .colon :: ks, ?_, fun c hc => ?_⟩
  · rw [declarationText]
    simpa using hdeclare
  · obtain ⟨p, s, ts, rfl, hts⟩ := Place.kinds_eq_cons hc
    obtain ⟨s₁, ts₁, rfl, hts₁⟩ := Place.kinds_cons hts
    obtain ⟨s₂, ts₂, rfl, hts₂⟩ := Place.kinds_cons hts₁
    obtain ⟨w, c', hw, hc', hp⟩ := hread _ hts₂
    exact ⟨w, c', .declared hw, hc', hp⟩

variable (hvars : ∀ d ∈ vars, IsName d.1.toList ∧
  Renders Breaks NotLess TypeName d.2.text fun w => r.resolve w = .ok d.2)

include hvars

/-- **The words of declarations** come before those of the text. -/
theorem lexes_withDeclarations {text : String} (ha : NotLess after)
    (hrest : Lexes text.toList after) :
    ∃ ks, NotLess ks ∧ Lexes (withDeclarations vars text).toList ks ∧
      ∀ c : Place, c.kinds = ks → ∃ c', Declares r c vars c' ∧ c'.kinds = after := by
  induction vars with
  | nil => exact ⟨after, ha, hrest, fun c hc => ⟨c, .nil, hc⟩⟩
  | cons d vars ih =>
    obtain ⟨n, t⟩ := d
    obtain ⟨⟨hn, ht⟩, hvars⟩ := List.forall_mem_cons.mp hvars
    obtain ⟨ks, hless, hlex, hread⟩ := ih hvars
    obtain ⟨ks', hlex', hread'⟩ := lexes_declaration hn ht (breaks_cons rfl) hless hlex.space
    refine ⟨.name "declare" :: ks', notLess_cons (by decide), ?_, fun c hc => ?_⟩
    · rw [withDeclarations]
      simpa using hlex'
    · obtain ⟨w, c', hdeclared, hc', hw⟩ := hread' c hc
      obtain ⟨c'', hothers, hc''⟩ := hread c' hc'
      exact ⟨c'', .cons hdeclared hw hothers, hc''⟩

/-- **The words behind declarations** are those of the text alone. -/
theorem lexes_of_withDeclarations {text : String} {ks : List TokenKind}
    (h : Lexes (withDeclarations vars text).toList ks) : ∃ after, Lexes text.toList after := by
  induction vars generalizing ks with
  | nil => exact ⟨ks, h⟩
  | cons d vars ih =>
    obtain ⟨n, t⟩ := d
    obtain ⟨⟨hn, ht⟩, hvars⟩ := List.forall_mem_cons.mp hvars
    obtain ⟨ks₀, hfirst, -⟩ := lexes_declaration hn ht breaks_nil notLess_nil .nil
    rw [List.append_nil] at hfirst
    rw [withDeclarations] at h
    obtain ⟨after, hafter⟩ := hfirst.behind_blank (by simpa using h)
    exact ih hvars hafter

end

/-! ## The phrases of declarations -/

/-- A declaration is read in one way, and only as one. -/
theorem Grammar.Declared.expression {n : String} {c c' : Place} {w : TypeExpr}
    (h : Declared n c w c') : ∃ span, (∀ {v d}, Expression c' v d →
        Expression c (.declaration n span w v) d) ∧
      ∀ {u d}, Expression c u d → ∃ v, Expression c' v d ∧ u = .declaration n span w v := by
  obtain ⟨type⟩ := h
  refine ⟨_, fun hv => .declaration type hv, fun hu => ?_⟩
  cases hu with
  | declaration type' body =>
    obtain ⟨rfl, rfl⟩ := type.unique type'
    exact ⟨_, body, rfl⟩
  | operation start => cases start

/-- **Declarations are a context**: what they are in front of is an expression exactly when the
whole is, and it is elaborated over their table. -/
theorem Grammar.Declares.context {r : Registry} {c c' : Place} {vars : List (String × Ty)}
    (h : Declares r c vars c') : ∃ f : Phrase → Phrase,
      (∀ {v d}, Expression c' v d → Expression c (f v) d) ∧
      (∀ {u d}, Expression c u d → ∃ v, Expression c' v d ∧ u = f v) ∧
      ∀ ds : Declarations, ((ds.types ++ vars).map Prod.fst).Nodup →
        ∃ es : Declarations, es.types = ds.types ++ vars ∧
          ∀ v, elaborate r (f v) ds = elaborate r v es := by
  induction h with
  | nil => exact ⟨id, id, fun hu => ⟨_, hu, rfl⟩, fun ds _ =>
    ⟨ds, (List.append_nil _).symm, fun _ => rfl⟩⟩
  | @cons c n w t c' vars c'' declared type _ ih =>
    obtain ⟨f, hinto, hback, htable⟩ := ih
    obtain ⟨span, hinto', hback'⟩ := declared.expression
    refine ⟨fun v => .declaration n span w (f v), fun hv => hinto' (hinto hv), fun hu => ?_,
      fun ds hnodup => ?_⟩
    · obtain ⟨u', hu', rfl⟩ := hback' hu
      obtain ⟨v, hv, rfl⟩ := hback hu'
      exact ⟨v, hv, rfl⟩
    · obtain ⟨hdeclare, htypes⟩ := Declarations.declare_of_nodup hnodup span
      rw [← htypes] at hnodup
      obtain ⟨es, hes, hv⟩ := htable _ hnodup
      refine ⟨es, hes.trans htypes, fun v => ?_⟩
      rw [elaborate, type, ← hv v]
      change (ruled (ds.declare n t span) >>= _) = _
      rw [hdeclare]
      rfl

/-! ## Both ways -/

/-- The literals that are equal to themselves. -/
def Literal.Definite (v : Literal) : Prop := v.equal v = true

theorem definite_of_lexes {cs : List Char} {ks : List TokenKind} (h : Lexes cs ks) :
    ∀ k ∈ ks, ∀ v, k.literal? = some v → v.Definite := by
  rintro k hk v hv
  refine Expr.equal_literal fun x hx => h.isNaN_eq_false x ?_
  subst hx
  cases k with
  | float =>
    cases hv
    exact hk
  | _ => cases hv

section

variable {r : Registry} {vars : List (String × Ty)} {text : String} {ds es : Declarations}
  {e : Expr}

/-- An expression is carried to a place with the same words, over a table with the same types. -/
theorem carried {L : Literal → Prop} {c d : Place} {u : Phrase} {stop : Span} {ds' : Declarations}
    (hcd : c.Like L d) (hu : Expression c u ⟨stop, []⟩) (hds : ds.types = es.types)
    (he : elaborate r u ds = .ok (e, ds')) :
    ∃ v stop' e' es', Expression d v ⟨stop', []⟩ ∧ elaborate r v es = .ok (e', es') ∧
      Copy Span.Any L e e' := by
  obtain ⟨v, ⟨stop', ts⟩, hv, hend, hlike⟩ := hu.like hcd
  obtain rfl : ts = [] := List.forall₂_nil_left_iff.mp hend
  obtain ⟨e', es', he', -, hcopy⟩ := elaborate_like (.refl r) (fun _ _ => trivial) hlike hds he
  exact ⟨v, stop', e', es', hv, he', hcopy⟩

variable (hvars : ∀ d ∈ vars, IsName d.1.toList ∧
    Renders Breaks NotLess TypeName d.2.text fun w => r.resolve w = .ok d.2)
  (hless : (lex text).tokens.head?.map Token.kind ≠ some (.punct .less))

include hvars hless

/-- **The tokens behind declarations** are those of the text alone, but for their spans. -/
theorem declares_of_tokenize {tokens : List Token} (h : tokenize text = .ok tokens) :
    ∃ tokens' c, tokenize (withDeclarations vars text) = .ok tokens' ∧
      Declares r ⟨Span.point Position.first, tokens'⟩ vars c ∧
      Place.Like Literal.Definite ⟨Span.point Position.first, tokens⟩ c := by
  have hlex := lexes_of_tokenize h
  have hhead : NotLess (tokens.map Token.kind) := by
    rwa [NotLess, List.head?_map, ← tokens_of_tokenize h]
  obtain ⟨ks, -, hall, hread⟩ := lexes_withDeclarations hvars hhead hlex
  obtain ⟨tokens', htokens', hks⟩ := hall.tokenize
  obtain ⟨c, hc, hkinds⟩ := hread ⟨_, tokens'⟩ hks
  exact ⟨tokens', c, htokens', hc, .of_kinds hkinds.symm (definite_of_lexes hlex)⟩

variable (hds : ds.types = vars) (hnodup : (vars.map Prod.fst).Nodup)

include hds hnodup

theorem parse_of_parseWith (h : parseWith text r ds = .ok e) :
    ∃ e', parse (withDeclarations vars text) r = .ok e' ∧ Copy Span.Any Literal.Definite e e' := by
  obtain ⟨tokens, htokens, u, ⟨stop, hu⟩, ds', he⟩ := parseWith_eq_ok.mp h
  obtain ⟨tokens', c, htokens', hdeclares, hlike⟩ := declares_of_tokenize hvars hless htokens
  obtain ⟨f, hinto, -, htable⟩ := hdeclares.context
  obtain ⟨es, hes, helaborate⟩ := htable [] hnodup
  obtain ⟨v, stop', e', es', hv, he', hcopy⟩ := carried hlike hu (hds.trans hes.symm) he
  exact ⟨e', parseWith_eq_ok.mpr ⟨tokens', htokens', f v, ⟨stop', hinto hv⟩, es',
    (helaborate v).trans he'⟩, hcopy⟩

theorem parseWith_of_parse (h : parse (withDeclarations vars text) r = .ok e) :
    ∃ e', parseWith text r ds = .ok e' := by
  obtain ⟨all, hall, u, ⟨stop, hu⟩, ds', he⟩ := parseWith_eq_ok.mp h
  obtain ⟨after, hafter⟩ := lexes_of_withDeclarations hvars (lexes_of_tokenize hall)
  obtain ⟨tokens, htokens, -⟩ := hafter.tokenize
  obtain ⟨tokens', c, htokens', hdeclares, hlike⟩ := declares_of_tokenize hvars hless htokens
  cases hall.symm.trans htokens'
  obtain ⟨f, -, hback, htable⟩ := hdeclares.context
  obtain ⟨es, hes, helaborate⟩ := htable [] hnodup
  obtain ⟨v, hv, rfl⟩ := hback hu
  obtain ⟨w, stop', e', es', hw, he', -⟩ :=
    carried hlike.symm hv (hes.trans hds.symm) ((helaborate v).symm.trans he)
  exact ⟨e', parseWith_eq_ok.mpr ⟨tokens, htokens, w, ⟨stop', hw⟩, es', he'⟩⟩

end

/-- **Declared by the host or in the text**: declaring variables of different names succeeds; over
them a text is read exactly when it is read behind their declarations; and the two trees are equal,
with the same types on their nodes. -/
theorem parse_withDeclarations {r : Registry} (hr : r.Built) {vars : List (String × Ty)}
    (hnames : ∀ d ∈ vars, IsIdentifier d.1) (hnodup : (vars.map Prod.fst).Nodup)
    (htypes : ∀ d ∈ vars, parseType d.2.text r = .ok d.2) {text : String}
    (hless : (lex text).tokens.head?.map Token.kind ≠ some (.punct .less)) :
    ∃ ds, Declarations.declareEach [] vars = .ok ds ∧
      ((∃ e, parseWith text r ds = .ok e) ↔ ∃ e', parse (withDeclarations vars text) r = .ok e') ∧
      ∀ e e', parseWith text r ds = .ok e → parse (withDeclarations vars text) r = .ok e' →
        e'.equal e = true ∧ e'.eraseSpans = e.eraseSpans := by
  have hvars : ∀ d ∈ vars, IsName d.1.toList ∧
      Renders Breaks NotLess TypeName d.2.text fun w => r.resolve w = .ok d.2 :=
    fun d hd => ⟨(hnames d hd).isName, Expr.renders_of_parseType hr (htypes d hd)⟩
  obtain ⟨ds, hdeclare, hds⟩ := @Declarations.declareEach_of_nodup vars [] hnodup
  refine ⟨ds, hdeclare, ⟨?_, ?_⟩, fun e e' he he' => ?_⟩
  · rintro ⟨e, he⟩
    obtain ⟨e', he', -⟩ := parse_of_parseWith hvars hless hds hnodup he
    exact ⟨e', he'⟩
  · rintro ⟨e', he'⟩
    exact parseWith_of_parse hvars hless hds hnodup he'
  · obtain ⟨e'', he'', hcopy⟩ := parse_of_parseWith hvars hless hds hnodup he
    cases he'.symm.trans he''
    have herase := hcopy.like.eraseSpans_eq.symm
    exact ⟨Expr.equal_of_eraseSpans hcopy.known e' herase, herase⟩

/-- A variable of an alias and one of a type with arguments, before a lambda with a
declaration of its own. -/
theorem parse_withDeclarations_lambda :
    let vars : List (String × Ty) := [("n", .aliased "id" .int), ("xs", .list .int)]
    let text := "|a| declare m: int xs[n] - m"
    ∃ (r : Registry) (ds : Declarations) (e e' : Expr),
      Registry.initial.defineAlias "id" .int = .ok r ∧ Declarations.declareEach [] vars = .ok ds ∧
      withDeclarations vars text =
        "declare n: id declare xs: list<int> |a| declare m: int xs[n] - m" ∧
      parseWith text r ds = .ok e ∧ parse (withDeclarations vars text) r = .ok e' ∧
      e'.equal e = true ∧ e'.eraseSpans = e.eraseSpans := by
  intro vars text
  obtain ⟨r, hr⟩ : ∃ r : Registry, r = ⟨[("id", .int)], Registry.initial.functions⟩ := ⟨_, rfl⟩
  have hdefine : Registry.initial.defineAlias "id" .int = .ok r := by
    rw [hr]
    rfl
  have hnames : ∀ d ∈ vars, IsIdentifier d.1 :=
    List.forall_mem_cons.mpr ⟨⟨_, rfl⟩, List.forall_mem_singleton.mpr ⟨_, rfl⟩⟩
  have htypes : ∀ d ∈ vars, parseType d.2.text r = .ok d.2 := by
    rw [hr]
    decide +kernel
  obtain ⟨ds, hds, hboth, hequal⟩ := @parse_withDeclarations r (.defineAlias .initial hdefine) vars
    hnames (by decide) htypes text (by decide +kernel)
  have hread : parseWith text r ds = .ok (.lambda ⟨⟨1, 1⟩, ⟨1, 29⟩⟩ ["a"]
      (.binary ⟨⟨1, 20⟩, ⟨1, 29⟩⟩ .subtract
        (.offset ⟨⟨1, 20⟩, ⟨1, 25⟩⟩ (.get ⟨⟨1, 20⟩, ⟨1, 22⟩⟩ "xs" (.list .int))
          (.get ⟨⟨1, 23⟩, ⟨1, 24⟩⟩ "n" (.aliased "id" .int)))
        (.get ⟨⟨1, 28⟩, ⟨1, 29⟩⟩ "m" .int))) := by
    cases hds
    rw [hr]
    decide +kernel
  obtain ⟨e', he'⟩ := hboth.mp ⟨_, hread⟩
  exact ⟨r, ds, _, e', hdefine, hds, by decide +kernel, hread, he', hequal _ _ hread he'⟩

end Ascription
