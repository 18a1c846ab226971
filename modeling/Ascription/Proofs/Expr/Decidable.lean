import Ascription.Expr
import Ascription.Proofs.Except

/-!
# Proofs/Expr/Decidable — types and trees can be told apart

`Ty.equal` looks through aliases and goes by names, `Expr.equal` passes over spans.  Sameness looks
at all there is, so a text can be run and its tree compared with the one that is written down.
-/

namespace Ascription

namespace Ty

mutual

/-- **Sameness of types**, the names of aliases included. -/
def same : Ty → Ty → Bool
  | string, string | int, int | float, float | bool, bool | any, any | never, never | none, none =>
    true
  | option a, option b | some a, some b | list a, list b => same a b
  | map k v, map k' v' => same k k' && same v v'
  | func r ps, func r' ps' => same r r' && sameAll ps ps'
  | struct fs, struct fs' => sameFields fs fs'
  | object n, object n' => n == n'
  | aliased n t, aliased n' t' => n == n' && same t t'
  | _, _ => false

/-- Sameness of two lists of types. -/
def sameAll : List Ty → List Ty → Bool
  | [], [] => true
  | a :: as, b :: bs => same a b && sameAll as bs
  | _, _ => false

/-- Sameness of the fields of two struct types. -/
def sameFields : List (String × Ty) → List (String × Ty) → Bool
  | [], [] => true
  | (n, a) :: fs, (n', b) :: fs' => n == n' && same a b && sameFields fs fs'
  | _, _ => false

end

mutual

theorem same_iff : ∀ {a b : Ty}, a.same b = true ↔ a = b
  | option a, b | some a, b | list a, b => by cases b <;> simp [same, @same_iff a]
  | map k v, b => by cases b <;> simp [same, @same_iff k, @same_iff v]
  | func r ps, b => by cases b <;> simp [same, @same_iff r, @sameAll_iff ps]
  | struct fs, b => by cases b <;> simp [same, @sameFields_iff fs]
  | aliased n t, b => by cases b <;> simp [same, @same_iff t]
  | object n, b => by cases b <;> simp [same]
  | string, b | int, b | float, b | bool, b | any, b | never, b | none, b => by
    cases b <;> simp [same]

theorem sameAll_iff : ∀ {as bs : List Ty}, sameAll as bs = true ↔ as = bs
  | [], bs => by cases bs <;> simp [sameAll]
  | a :: as, bs => by cases bs <;> simp [sameAll, @same_iff a, @sameAll_iff as]

theorem sameFields_iff : ∀ {fs fs' : List (String × Ty)}, sameFields fs fs' = true ↔ fs = fs'
  | [], fs' => by cases fs' <;> simp [sameFields]
  | (n, a) :: fs, fs' => by
    cases fs' <;> simp [sameFields, @same_iff a, @sameFields_iff fs, Prod.ext_iff]

end

instance : DecidableEq Ty := fun _ _ => decidable_of_iff _ same_iff

end Ty

namespace Expr

mutual

/-- **Sameness of expressions**, spans included. -/
def same : Expr → Expr → Bool
  | get s n t, get s' n' t' => s == s' && n == n' && t == t'
  | literal s v, literal s' v' => s == s' && v == v'
  | binary s op l r, binary s' op' l' r' => s == s' && op == op' && same l l' && same r r'
  | negative s e, negative s' e' => s == s' && same e e'
  | call s t n ty as, call s' t' n' ty' as' =>
    s == s' && same t t' && n == n' && ty == ty' && sameAll as as'
  | lambda s ps b, lambda s' ps' b' => s == s' && ps == ps' && same b b'
  | list s es, list s' es' => s == s' && sameAll es es'
  | struct s fs, struct s' fs' => s == s' && sameFields fs fs'
  | field s t n ty, field s' t' n' ty' => s == s' && same t t' && n == n' && ty == ty'
  | offset s t k, offset s' t' k' => s == s' && same t t' && same k k'
  | _, _ => false

/-- Sameness of two lists of expressions. -/
def sameAll : List Expr → List Expr → Bool
  | [], [] => true
  | a :: as, b :: bs => same a b && sameAll as bs
  | _, _ => false

/-- Sameness of the fields of two struct literals. -/
def sameFields : List (String × Expr) → List (String × Expr) → Bool
  | [], [] => true
  | (n, a) :: fs, (n', b) :: fs' => n == n' && same a b && sameFields fs fs'
  | _, _ => false

end

mutual

theorem same_iff : ∀ {a b : Expr}, a.same b = true ↔ a = b
  | get s n t, b | literal s v, b => by cases b <;> simp [same, and_assoc]
  | binary s op l r, b => by cases b <;> simp [same, @same_iff l, @same_iff r, and_assoc]
  | negative s e, b => by cases b <;> simp [same, @same_iff e]
  | call s t n ty as, b => by cases b <;> simp [same, @same_iff t, @sameAll_iff as, and_assoc]
  | lambda s ps e, b => by cases b <;> simp [same, @same_iff e, and_assoc]
  | list s es, b => by cases b <;> simp [same, @sameAll_iff es]
  | struct s fs, b => by cases b <;> simp [same, @sameFields_iff fs]
  | field s t n ty, b => by cases b <;> simp [same, @same_iff t, and_assoc]
  | offset s t k, b => by cases b <;> simp [same, @same_iff t, @same_iff k, and_assoc]

theorem sameAll_iff : ∀ {as bs : List Expr}, sameAll as bs = true ↔ as = bs
  | [], bs => by cases bs <;> simp [sameAll]
  | a :: as, bs => by cases bs <;> simp [sameAll, @same_iff a, @sameAll_iff as]

theorem sameFields_iff : ∀ {fs fs' : List (String × Expr)}, sameFields fs fs' = true ↔ fs = fs'
  | [], fs' => by cases fs' <;> simp [sameFields]
  | (n, a) :: fs, fs' => by
    cases fs' <;> simp [sameFields, @same_iff a, @sameFields_iff fs, Prod.ext_iff]

end

instance : DecidableEq Expr := fun _ _ => decidable_of_iff _ same_iff

end Expr

end Ascription
