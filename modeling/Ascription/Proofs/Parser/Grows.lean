import Ascription.Proofs.Expr.Decidable
import Ascription.Proofs.Parser.Type
import Ascription.Proofs.Registry.Grows

/-!
# Proofs/Parser/Grows — what is read stays read

    r ──calls──▸ r'        a text that is read with r is read with r', for the same tree or type

Only aliases are looked up while a text is read, and the aliases of a registry keep their
targets however it grows.
-/

namespace Ascription

open Phrase Grammar Ascription.Parser

variable {r r' : Registry} {source : String}

/-- A text that is read with a registry is read alike with one that knows its aliases. -/
theorem parseWith_extends (hr : r'.Extends r) {ds : Declarations} {e : Expr}
    (h : parseWith source r ds = .ok e) : parseWith source r' ds = .ok e := by
  obtain ⟨tokens, htokens, u, hu, ds', he⟩ := parseWith_eq_ok.mp h
  have hmerge : Span.Merges Eq := by
    rintro _ _ _ _ rfl rfl
    rfl
  obtain ⟨y, es', hy, -, hcopy⟩ := elaborate_like hr hmerge (.refl (fun _ => rfl) u) rfl he
  rw [hcopy.like.eq]
  exact parseWith_eq_ok.mpr ⟨tokens, htokens, u, hu, es', hy⟩

theorem parseType_extends (hr : r'.Extends r) {t : Ty} (h : parseType source r = .ok t) :
    parseType source r' = .ok t := by
  obtain ⟨tokens, htokens, w, hw, ht⟩ := parseType_eq_ok.mp h
  have ht' : r'.resolve w = .ok t := Registry.resolve_like hr (.refl (fun _ => rfl) w) ht
  exact parseType_eq_ok.mpr ⟨tokens, htokens, w, hw, ht'⟩

namespace Registry

/-- **A growing registry keeps what is read.**  Whatever calls a host makes on the initial
registry, a call whose name is taken is refused and changes nothing, and any other puts its entry
behind the rest; no alias gets a reserved name and the built-in functions keep their signatures;
and an expression or a type that is read at one time is read at every later time, with the same
tree, types and spans. -/
theorem growing_keeps_reading (earlier later : List Call) :
    let r := initial.after earlier
    let r' := r.after later
    (∀ call, (r.Taken call → (∃ e, r.answer call = .error e) ∧ r.next call = r) ∧
      (¬ r.Taken call → r.answer call = .ok (r.append call) ∧ r.next call = r.append call)) ∧
    (∀ n, isReservedTypeName n = true → n ∉ r.aliases.map Prod.fst) ∧
    (∀ b : Builtin, r.function? b.name = some b.signature) ∧
    (∀ text ds e, parseWith text r ds = .ok e → parseWith text r' ds = .ok e) ∧
    ∀ text t, parseType text r = .ok t → parseType text r' = .ok t := by
  intro r r'
  have hbuilt : r.Built := Built.initial.after
  exact ⟨fun call => ⟨next_of_taken, next_of_free⟩, fun n hn => hbuilt.notMem_aliases hn,
    hbuilt.function?_builtin, fun text ds e => parseWith_extends after_extends,
    fun text t => parseType_extends after_extends⟩

/-- A text with an alias of lists of an alias, and a later registry to which both names and that of
a built-in function were offered again. -/
theorem growing_keeps_reading_alias :
    let r := initial.after [.defineAlias "id" .int, .defineAlias "fn" .string,
      .defineAlias "ids" (.list (.aliased "id" .int))]
    let r' := r.after [.defineAlias "id" .string, .declareFunction "map" .any,
      .declareFunction "twice" .any, .defineAlias "ids" .bool]
    r.Taken (.defineAlias "id" .string) ∧ r.next (.defineAlias "id" .string) = r ∧
      isReservedTypeName "fn" = true ∧ "fn" ∉ r.aliases.map Prod.fst ∧
      ∃ e, parseWith "declare xs: ids xs[0] - 1" r [] = .ok e ∧
        parseWith "declare xs: ids xs[0] - 1" r' [] = .ok e := by
  intro r r'
  have htaken : r.Taken (.defineAlias "id" .string) := .inr (by decide)
  have hread : parseWith "declare xs: ids xs[0] - 1" r [] =
      .ok (.binary ⟨⟨1, 17⟩, ⟨1, 26⟩⟩ .subtract
      (.offset ⟨⟨1, 17⟩, ⟨1, 22⟩⟩ (.get ⟨⟨1, 17⟩, ⟨1, 19⟩⟩ "xs"
        (.aliased "ids" (.list (.aliased "id" .int)))) (.literal ⟨⟨1, 20⟩, ⟨1, 21⟩⟩ (.int 0)))
      (.literal ⟨⟨1, 25⟩, ⟨1, 26⟩⟩ (.int 1))) := by
    decide +kernel
  obtain ⟨hcalls, hreserved, -, hkeeps, -⟩ := growing_keeps_reading
    [.defineAlias "id" .int, .defineAlias "fn" .string,
      .defineAlias "ids" (.list (.aliased "id" .int))]
    [.defineAlias "id" .string, .declareFunction "map" .any, .declareFunction "twice" .any,
      .defineAlias "ids" .bool]
  exact ⟨htaken, ((hcalls _).1 htaken).2, rfl, hreserved "fn" rfl, _, hread, hkeeps _ _ _ hread⟩

end Registry

end Ascription
