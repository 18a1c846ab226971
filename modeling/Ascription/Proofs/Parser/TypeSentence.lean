import Ascription.Proofs.Expr.Decidable
import Ascription.Proofs.Parser.Type
import Ascription.Proofs.Text.Renders
import Ascription.Proofs.Token.Words

/-!
# Proofs/Parser/TypeSentence — which texts are types

    type := name ['<' type (',' type)* [','] '>']
          | 'fn' '(' [type (',' type)* [',']] ')' '->' type
          | '{' [name ':' type (',' name ':' type)* [',']] '}'

A sentence is a list of words, whatever stands behind it.  Reading goes on from place to place and
looks one word ahead; behind a type it looks for `<` and for `(`, and no sentence has either there.
One reader of lists serves all three kinds of brackets, so the reader takes one form more than the
grammar: a name before an empty list of arguments.
-/

namespace Ascription

namespace Grammar

/-- What is repeated in the grammar of types. -/
inductive Part
  | type
  | field

/-- How often it stands: once, at least once with commas between, or such a list or nothing. -/
inductive Count
  | one
  | some
  | any

/-- **The sentences of the grammar of types.** The parameter says whether an empty list of arguments
is one; in the grammar above it is not. -/
inductive Sentence (empty : Prop) : Count → Part → List TokenKind → Prop
  | name {n} : Sentence empty .one .type [.name n]
  | applied {n ks} (args : Sentence empty .some .type ks) :
      Sentence empty .one .type (.name n :: .punct .less :: ks ++ [.punct .greater])
  | bare {n} (allowed : empty) :
      Sentence empty .one .type [.name n, .punct .less, .punct .greater]
  | func {ks ks'} (params : Sentence empty .any .type ks) (result : Sentence empty .one .type ks') :
      Sentence empty .one .type
        (.name "fn" :: .punct .leftParen :: ks ++ .punct .rightParen :: .punct .arrow :: ks')
  | struct {ks} (fields : Sentence empty .any .field ks) :
      Sentence empty .one .type (.punct .leftBrace :: ks ++ [.punct .rightBrace])
  | field {n ks} (type : Sentence empty .one .type ks) :
      Sentence empty .one .field (.name n :: .punct .colon :: ks)
  | last {p ks} (item : Sentence empty .one p ks) : Sentence empty .some p ks
  | trailing {p ks} (item : Sentence empty .one p ks) :
      Sentence empty .some p (ks ++ [.punct .comma])
  | more {p ks ks'} (item : Sentence empty .one p ks) (others : Sentence empty .some p ks') :
      Sentence empty .some p (ks ++ .punct .comma :: ks')
  | absent {p} : Sentence empty .any p []
  | present {p ks} (items : Sentence empty .some p ks) : Sentence empty .any p ks

namespace Sentence

variable {empty : Prop} {m : Count} {p : Part} {ks ks' : List TokenKind}

/-- An item before a comma and what may be left out behind it. -/
theorem cons (item : Sentence empty .one p ks) (others : Sentence empty .any p ks') :
    Sentence empty .some p (ks ++ .punct .comma :: ks') := by
  cases others with
  | absent => exact .trailing item
  | present items => exact .more item items

/-- Only what may be left out has no words. -/
theorem ne_nil (h : Sentence empty m p ks) (hm : m ≠ .any) : ks ≠ [] := by
  induction h with
  | last _ ih => exact ih nofun
  | absent | present => exact absurd rfl hm
  | _ => simp

/-- **A sentence without an empty list of arguments** is one of the grammar without them. -/
theorem of_not_infix (h : Sentence empty m p ks)
    (hno : ¬ [.punct .less, .punct .greater] <:+: ks) : Sentence False m p ks := by
  induction h with
  | name => exact .name
  | bare => exact absurd ⟨[_], [], rfl⟩ hno
  | @applied n ks _ ih =>
    exact .applied (ih fun h => hno (h.trans ⟨[.name n, .punct .less], [.punct .greater], rfl⟩))
  | @func ks ks' _ _ ih ih' =>
    refine .func (ih fun h => hno (h.trans ?_)) (ih' fun h => hno (h.trans ?_))
    · exact ⟨[.name "fn", .punct .leftParen], .punct .rightParen :: .punct .arrow :: ks', rfl⟩
    · exact ⟨.name "fn" :: .punct .leftParen :: ks ++ [.punct .rightParen, .punct .arrow],
        [], by simp⟩
  | @struct ks _ ih =>
    exact .struct (ih fun h => hno (h.trans ⟨[.punct .leftBrace], [.punct .rightBrace], rfl⟩))
  | @field n ks _ ih =>
    exact .field (ih fun h => hno (h.trans ⟨[.name n, .punct .colon], [], by simp⟩))
  | last _ ih => exact .last (ih hno)
  | trailing _ ih =>
    exact .trailing (ih fun h => hno (h.trans (List.prefix_append _ _).isInfix))
  | @more p ks ks' _ _ ih ih' =>
    refine .more (ih fun h => hno (h.trans (List.prefix_append _ _).isInfix))
      (ih' fun h => hno (h.trans ⟨ks ++ [.punct .comma], [], by simp⟩))
  | absent => exact .absent
  | present _ ih => exact .present (ih hno)

end Sentence

/-! ## What is read is a sentence -/

@[simp] theorem kinds_mk {q : Span} {k : TokenKind} {s : Span} {ts : List Token} :
    Place.kinds ⟨q, ⟨k, s⟩ :: ts⟩ = k :: Place.kinds ⟨s, ts⟩ := rfl

mutual

theorem TypeName.sentence : ∀ {c w c'}, TypeName c w c' →
    ∃ ks, Sentence True .one .type ks ∧ c.kinds = ks ++ c'.kinds
  | _, _, _, .name _ _ => ⟨_, .name, rfl⟩
  | _, _, _, .applied (n := n) list => by
    obtain ⟨ks, hargs, hks⟩ := list.sentence_types
    cases hargs with
    | absent => exact ⟨_, .bare (n := n) trivial, by simp [hks]⟩
    | present items => exact ⟨_, .applied (n := n) items, by simp [hks]⟩
  | _, _, _, .func list returns => by
    obtain ⟨ks, hparams, hks⟩ := list.sentence_types
    obtain ⟨ks', hresult, hks'⟩ := returns.sentence
    exact ⟨_, .func hparams hresult, by simp [hks, hks']⟩
  | _, _, _, .struct list => by
    obtain ⟨ks, hfields, hks⟩ := list.sentence_fields
    exact ⟨_, .struct hfields, by simp [hks]⟩

theorem TypeField.sentence : ∀ {c x c'}, TypeField c x c' →
    ∃ ks, Sentence True .one .field ks ∧ c.kinds = ks ++ c'.kinds
  | _, _, _, .field (n := n) type => by
    obtain ⟨ks, htype, hks⟩ := type.sentence
    exact ⟨_, .field (n := n) htype, by simp [hks]⟩

theorem Listed.sentence_types : ∀ {c ws c'}, Listed TypeName c ws c' →
    ∃ ks, Sentence True .any .type ks ∧ c.kinds = ks ++ c'.kinds
  | _, _, _, .none => ⟨_, .absent, rfl⟩
  | _, _, _, .one item => by
    obtain ⟨ks, hitem, hks⟩ := item.sentence
    exact ⟨ks, .present (.last hitem), hks⟩
  | _, _, _, .more item rest => by
    obtain ⟨ks, hitem, hks⟩ := item.sentence
    obtain ⟨ks', hrest, hks'⟩ := rest.sentence_types
    exact ⟨_, .present (.cons hitem hrest), by simp [hks, hks']⟩

theorem Listed.sentence_fields : ∀ {c xs c'}, Listed TypeField c xs c' →
    ∃ ks, Sentence True .any .field ks ∧ c.kinds = ks ++ c'.kinds
  | _, _, _, .none => ⟨_, .absent, rfl⟩
  | _, _, _, .one item => by
    obtain ⟨ks, hitem, hks⟩ := item.sentence
    exact ⟨ks, .present (.last hitem), hks⟩
  | _, _, _, .more item rest => by
    obtain ⟨ks, hitem, hks⟩ := item.sentence
    obtain ⟨ks', hrest, hks'⟩ := rest.sentence_fields
    exact ⟨_, .present (.cons hitem hrest), by simp [hks, hks']⟩

end

/-! ## What is a sentence is read -/

/-- What is read for a part of the grammar. -/
def Part.Tree : Part → Type
  | .type => TypeExpr
  | .field => String × TypeExpr × Span

/-- How it is read. -/
def Part.Reads : (p : Part) → Place → p.Tree → Place → Prop
  | .type => TypeName
  | .field => TypeField

/-- Reading from a place up to the words behind. -/
def Count.Reads : Count → Part → Place → List TokenKind → Prop
  | .one, p, c, behind => ∃ x c', p.Reads c x c' ∧ c'.kinds = behind
  | .some, p, c, behind | .any, p, c, behind => ∃ xs c', Listed p.Reads c xs c' ∧ c'.kinds = behind

/-- The next word is none that a type could go on with. -/
def Ends (behind : List TokenKind) : Prop :=
  ∀ k ∈ behind.head?, k ≠ .punct .less ∧ k ≠ .punct .leftParen

theorem ends_nil : Ends [] := nofun

theorem ends_cons {k : TokenKind} {ks : List TokenKind} (hless : k ≠ .punct .less)
    (hparen : k ≠ .punct .leftParen) : Ends (k :: ks) := by
  rintro _ ⟨⟩
  exact ⟨hless, hparen⟩

theorem Ends.next_ne {c : Place} (h : Ends c.kinds) :
    c.next ≠ some (.punct .less) ∧ c.next ≠ some (.punct .leftParen) := by
  rw [Place.next_eq]
  exact ⟨fun hk => (h _ hk).1 rfl, fun hk => (h _ hk).2 rfl⟩

/-- **A sentence is read** from any place at which it stands, up to its end. -/
theorem Sentence.reads {empty : Prop} {m : Count} {p : Part} {ks : List TokenKind}
    (h : Sentence empty m p ks) :
    ∀ {c : Place} {behind}, Ends behind → c.kinds = ks ++ behind → m.Reads p c behind := by
  induction h with
  | name =>
    intro c behind hends hc
    obtain ⟨q, s, ts, rfl, rfl⟩ := Place.kinds_eq_cons hc
    exact ⟨_, _, .name hends.next_ne.1 fun _ => hends.next_ne.2, rfl⟩
  | applied _ ih =>
    intro c behind _ hc
    simp only [List.cons_append, List.append_assoc, List.nil_append] at hc
    obtain ⟨q, s, ts, rfl, hless⟩ := Place.kinds_eq_cons hc
    obtain ⟨s₁, ts, rfl, hargs⟩ := Place.kinds_cons hless
    obtain ⟨ws, c', hlist, hc'⟩ := ih (ends_cons (by simp) (by simp)) hargs
    obtain ⟨q', s₂, ts', rfl, hbehind⟩ := Place.kinds_eq_cons hc'
    exact ⟨_, _, .applied hlist, hbehind⟩
  | bare =>
    intro c behind _ hc
    simp only [List.cons_append, List.nil_append] at hc
    obtain ⟨q, s, ts, rfl, hless⟩ := Place.kinds_eq_cons hc
    obtain ⟨s₁, ts, rfl, hgreater⟩ := Place.kinds_cons hless
    obtain ⟨s₂, ts, rfl, hbehind⟩ := Place.kinds_cons hgreater
    exact ⟨_, ⟨s₂, ts⟩, .applied .none, hbehind⟩
  | func _ _ ih ih' =>
    intro c behind hends hc
    simp only [List.cons_append, List.append_assoc] at hc
    obtain ⟨q, s, ts, rfl, hparen⟩ := Place.kinds_eq_cons hc
    obtain ⟨s₁, ts, rfl, hparams⟩ := Place.kinds_cons hparen
    obtain ⟨ws, c', hlist, hc'⟩ := ih (ends_cons (by simp) (by simp)) hparams
    obtain ⟨q', s₂, ts', rfl, harrow⟩ := Place.kinds_eq_cons hc'
    obtain ⟨s₃, ts', rfl, hresult⟩ := Place.kinds_cons harrow
    obtain ⟨w, c'', hreturns, hc''⟩ := ih' hends hresult
    exact ⟨_, _, .func hlist hreturns, hc''⟩
  | struct _ ih =>
    intro c behind _ hc
    simp only [List.cons_append, List.append_assoc, List.nil_append] at hc
    obtain ⟨q, s, ts, rfl, hfields⟩ := Place.kinds_eq_cons hc
    obtain ⟨xs, c', hlist, hc'⟩ := ih (ends_cons (by simp) (by simp)) hfields
    obtain ⟨q', s₁, ts', rfl, hbehind⟩ := Place.kinds_eq_cons hc'
    exact ⟨_, _, .struct hlist, hbehind⟩
  | field _ ih =>
    intro c behind hends hc
    simp only [List.cons_append] at hc
    obtain ⟨q, s, ts, rfl, hcolon⟩ := Place.kinds_eq_cons hc
    obtain ⟨s₁, ts, rfl, htype⟩ := Place.kinds_cons hcolon
    obtain ⟨w, c', hw, hc'⟩ := ih hends htype
    exact ⟨_, _, .field hw, hc'⟩
  | last _ ih =>
    intro c behind hends hc
    obtain ⟨x, c', hitem, hc'⟩ := ih hends hc
    exact ⟨[x], c', .one hitem, hc'⟩
  | trailing _ ih =>
    intro c behind _ hc
    simp only [List.append_assoc, List.cons_append, List.nil_append] at hc
    obtain ⟨x, c', hitem, hc'⟩ := ih (ends_cons (by simp) (by simp)) hc
    obtain ⟨q, s, ts, rfl, hbehind⟩ := Place.kinds_eq_cons hc'
    exact ⟨[x], _, .more hitem .none, hbehind⟩
  | more _ _ ih ih' =>
    intro c behind hends hc
    simp only [List.append_assoc, List.cons_append] at hc
    obtain ⟨x, c', hitem, hc'⟩ := ih (ends_cons (by simp) (by simp)) hc
    obtain ⟨q, s, ts, rfl, hothers⟩ := Place.kinds_eq_cons hc'
    obtain ⟨xs, c'', hlist, hc''⟩ := ih' hends hothers
    exact ⟨x :: xs, c'', .more hitem hlist, hc''⟩
  | absent =>
    intro c behind _ hc
    exact ⟨[], c, .none, hc⟩
  | present _ ih => exact ih

end Grammar

open Grammar

/-- **The texts of types.**  A text that is read as a type is a sentence of the grammar, but for
empty lists of arguments, which are read as no list at all; and a sentence, with or without such
lists, is refused for its types only. -/
theorem parseType_sentence (source : String) (r : Registry) :
    (∀ t, parseType source r = .ok t → ∃ tokens, tokenize source = .ok tokens ∧
      Sentence True .one .type (tokens.map Token.kind) ∧
      (¬ [.punct .less, .punct .greater] <:+: tokens.map Token.kind →
        Sentence False .one .type (tokens.map Token.kind))) ∧
    ∀ tokens empty, tokenize source = .ok tokens →
      Sentence empty .one .type (tokens.map Token.kind) →
        (∃ t, parseType source r = .ok t) ∨ ∃ e, parseType source r = .error (.illTyped e) := by
  constructor
  · intro t h
    obtain ⟨tokens, htokens, w, ⟨stop, hw⟩, -⟩ := parseType_eq_ok.mp h
    obtain ⟨ks, hsentence, hks⟩ := hw.sentence
    obtain rfl : tokens.map Token.kind = ks := hks.trans (List.append_nil ks)
    exact ⟨tokens, htokens, hsentence, hsentence.of_not_infix⟩
  · intro tokens empty htokens hsentence
    obtain ⟨w, ⟨stop, rest⟩, hw, hrest⟩ := hsentence.reads ends_nil
      (c := ⟨Span.point Position.first, tokens⟩) (List.append_nil _).symm
    obtain rfl : rest = [] := List.map_eq_nil_iff.mp hrest
    cases hresolve : r.resolve w with
    | ok t => exact .inl ⟨t, parseType_eq_ok.mpr ⟨tokens, htokens, w, ⟨stop, hw⟩, hresolve⟩⟩
    | error e => exact .inr ⟨e, parseType_eq_error htokens ⟨stop, hw⟩ hresolve⟩

/-- A text with each production and commas before closing brackets; and a sentence that is
refused for the name `nope`. -/
theorem parseType_sentence_nested :
    (∃ tokens, tokenize "fn(map<int, list<any>,>, \x7bx: fn() -> bool,\x7d,) -> None" = .ok tokens ∧
      Sentence False .one .type (tokens.map Token.kind)) ∧
    ∃ e, parseType "list<nope,>" .initial = .error (.illTyped e) := by
  constructor
  · have hread : parseType "fn(map<int, list<any>,>, \x7bx: fn() -> bool,\x7d,) -> None"
        .initial = .ok (.func .none
          [.map .int (.list .any), .struct [("x", .func .bool [])]]) := by
      decide +kernel
    obtain ⟨tokens, htokens, -, hsentence⟩ := (parseType_sentence _ _).1 _ hread
    have hno : ¬ [.punct .less, .punct .greater] <:+:
        (lex "fn(map<int, list<any>,>, \x7bx: fn() -> bool,\x7d,) -> None").tokens.map
          Token.kind := by
      decide +kernel
    rw [Lexer.tokens_of_tokenize htokens] at hno
    exact ⟨tokens, htokens, hsentence hno⟩
  · have htokens : tokenize "list<nope,>" = .ok [⟨.name "list", ⟨⟨1, 1⟩, ⟨1, 5⟩⟩⟩,
        ⟨.punct .less, ⟨⟨1, 5⟩, ⟨1, 6⟩⟩⟩, ⟨.name "nope", ⟨⟨1, 6⟩, ⟨1, 10⟩⟩⟩,
        ⟨.punct .comma, ⟨⟨1, 10⟩, ⟨1, 11⟩⟩⟩, ⟨.punct .greater, ⟨⟨1, 11⟩, ⟨1, 12⟩⟩⟩] := by
      decide +kernel
    have hrefused : (parseType "list<nope,>" .initial).toBool = false := by decide +kernel
    refine ((parseType_sentence _ .initial).2 _ False htokens
      (.applied (.trailing .name))).resolve_left ?_
    rintro ⟨t, h⟩
    rw [h] at hrefused
    cases hrefused

/-- An empty list of arguments is read, and no sentence of the grammar has one. -/
theorem not_only_sentences : ¬ ∀ (source : String) (r : Registry) (t : Ty),
    parseType source r = .ok t → ∃ tokens, tokenize source = .ok tokens ∧
      Sentence False .one .type (tokens.map Token.kind) := by
  intro h
  have hread : parseType "int<>" .initial = .ok .int := by decide +kernel
  obtain ⟨tokens, htokens, hsentence⟩ := h _ _ _ hread
  have hlex : tokenize "int<>" = .ok [⟨.name "int", ⟨⟨1, 1⟩, ⟨1, 4⟩⟩⟩,
      ⟨.punct .less, ⟨⟨1, 4⟩, ⟨1, 5⟩⟩⟩, ⟨.punct .greater, ⟨⟨1, 5⟩, ⟨1, 6⟩⟩⟩] := by
    decide +kernel
  cases htokens.symm.trans hlex
  generalize hks : List.map Token.kind _ = ks at hsentence
  cases hsentence with
  | @applied n args items =>
    obtain ⟨-, hargs⟩ : "int" = n ∧ args = [] := by simpa using hks
    exact items.ne_nil nofun hargs
  | bare allowed => exact allowed
  | _ => simp at hks

end Ascription
