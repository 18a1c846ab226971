import Ascription.Proofs.Phrase
import Ascription.Proofs.Value.Related

/-!
# Proofs/Phrase/Like — phrases that differ in their spans

    u ~ v  :  the same phrase, the spans of each two nodes related by S, its literals in L
-/

namespace Ascription

/-- **The same written type**, with the spans of its nodes related by `S`. -/
inductive TypeExpr.Like (S : Span → Span → Prop) : TypeExpr → TypeExpr → Prop
  | named {s s' name ws ws'} (span : S s s') (args : List.Forall₂ (Like S) ws ws') :
      Like S (.named s name ws) (.named s' name ws')
  | func {s s' ws ws' w w'} (span : S s s') (params : List.Forall₂ (Like S) ws ws')
      (result : Like S w w') : Like S (.func s ws w) (.func s' ws' w')
  | struct {s s' fs fs'} (span : S s s')
      (fields : Entries.Related (Prod.RProd (Like S) S) fs fs') :
      Like S (.struct s fs) (.struct s' fs')

/-- **The same phrase**, with the spans of its nodes related by `S` and its literals in `L`. -/
inductive Phrase.Like (S : Span → Span → Prop) (L : Literal → Prop) : Phrase → Phrase → Prop
  | declaration {name s s' t t' u u'} (span : S s s') (type : TypeExpr.Like S t t')
      (body : Like S L u u') : Like S L (.declaration name s t u) (.declaration name s' t' u')
  | reference {s s' name t t'} (span : S s s') (ascribed : Option.Rel (TypeExpr.Like S) t t') :
      Like S L (.reference s name t) (.reference s' name t')
  | literal {s s' value} (span : S s s') (known : L value) :
      Like S L (.literal s value) (.literal s' value)
  | binary {op l l' r r'} (left : Like S L l l') (right : Like S L r r') :
      Like S L (.binary op l r) (.binary op l' r')
  | negative {s s' u u'} (start : S s s') (operand : Like S L u u') :
      Like S L (.negative s u) (.negative s' u')
  | call {u u' name t t' us us' s s'} (target : Like S L u u') (result : TypeExpr.Like S t t')
      (args : List.Forall₂ (Like S L) us us') (stop : S s s') :
      Like S L (.call u name t us s) (.call u' name t' us' s')
  | lambda {s s' params u u'} (start : S s s') (body : Like S L u u') :
      Like S L (.lambda s params u) (.lambda s' params u')
  | list {s s' us us'} (span : S s s') (items : List.Forall₂ (Like S L) us us') :
      Like S L (.list s us) (.list s' us')
  | struct {s s' fs fs'} (span : S s s')
      (fields : Entries.Related (Prod.RProd S (Like S L)) fs fs') :
      Like S L (.struct s fs) (.struct s' fs')
  | field {u u' name s s' t t' p p'} (target : Like S L u u') (span : S s s')
      (ascribed : Option.Rel (TypeExpr.Like S) t t') (stop : S p p') :
      Like S L (.field u name s t p) (.field u' name s' t' p')
  | offset {u u' k k' s s'} (target : Like S L u u') (key : Like S L k k') (stop : S s s') :
      Like S L (.offset u k s) (.offset u' k' s')

variable {S : Span → Span → Prop}

mutual

theorem TypeExpr.Like.refl (hS : ∀ s, S s s) : ∀ w : TypeExpr, w.Like S w
  | .named _ _ args => .named (hS _) (forall₂_like_refl hS args)
  | .func _ params result => .func (hS _) (forall₂_like_refl hS params) (.refl hS result)
  | .struct _ fields => .struct (hS _) (related_like_refl hS fields)

theorem TypeExpr.forall₂_like_refl (hS : ∀ s, S s s) : ∀ ws : List TypeExpr,
    List.Forall₂ (Like S) ws ws
  | [] => .nil
  | w :: ws => .cons (.refl hS w) (forall₂_like_refl hS ws)

theorem TypeExpr.related_like_refl (hS : ∀ s, S s s) : ∀ fs : List (String × TypeExpr × Span),
    Entries.Related (Prod.RProd (Like S) S) fs fs
  | [] => .nil
  | (_, w, _) :: fs => .cons (.intro (.refl hS w) (hS _)) (related_like_refl hS fs)

end

theorem TypeExpr.option_like_refl (hS : ∀ s, S s s) : ∀ w : Option TypeExpr,
    Option.Rel (Like S) w w
  | none => .none
  | some w => .some (.refl hS w)

mutual

theorem Phrase.Like.refl (hS : ∀ s, S s s) : ∀ u : Phrase, u.Like S (fun _ => True) u
  | .declaration _ _ t u => .declaration (hS _) (.refl hS t) (.refl hS u)
  | .reference _ _ t => .reference (hS _) (TypeExpr.option_like_refl hS t)
  | .literal _ _ => .literal (hS _) trivial
  | .binary _ u v => .binary (.refl hS u) (.refl hS v)
  | .negative _ u => .negative (hS _) (.refl hS u)
  | .call u _ t args _ => .call (.refl hS u) (.refl hS t) (Phrase.forall₂_like_refl hS args) (hS _)
  | .lambda _ _ u => .lambda (hS _) (.refl hS u)
  | .list _ us => .list (hS _) (Phrase.forall₂_like_refl hS us)
  | .struct _ fs => .struct (hS _) (Phrase.related_like_refl hS fs)
  | .field u _ _ t _ => .field (.refl hS u) (hS _) (TypeExpr.option_like_refl hS t) (hS _)
  | .offset u k _ => .offset (.refl hS u) (.refl hS k) (hS _)

theorem Phrase.forall₂_like_refl (hS : ∀ s, S s s) : ∀ us : List Phrase,
    List.Forall₂ (Like S fun _ => True) us us
  | [] => .nil
  | u :: us => .cons (.refl hS u) (Phrase.forall₂_like_refl hS us)

theorem Phrase.related_like_refl (hS : ∀ s, S s s) : ∀ fs : List (String × Span × Phrase),
    Entries.Related (Prod.RProd S (Like S fun _ => True)) fs fs
  | [] => .nil
  | (_, _, u) :: fs => .cons (.intro (hS _) (.refl hS u)) (Phrase.related_like_refl hS fs)

end

end Ascription
