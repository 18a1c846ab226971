import Ascription.Proofs.Declarations
import Ascription.Proofs.Expr.Within
import Ascription.Proofs.Phrase.Elaborate

/-!
# Proofs/Phrase/Ruled — every node of an elaborated tree obeys its rule

What the second pass checks at a node stays true of the node in the tree it builds, wherever the
node stands.  The types written on variables and calls are those the registry resolves or the
declarations hold, so a property of both is a property of all.
-/

namespace Ascription

namespace Expr

open Phrase

/-- **The static rule of a node**, with what holds of every type that is written on one. -/
def Ruled (T : Ty → Prop) : Expr → Prop
  | get _ _ type => T type
  | literal _ _ => True
  | binary _ op left right => joinRule op left right = .ok ()
  | negative _ operand => negationRule operand = .ok ()
  | call _ _ _ result _ => T result
  | lambda _ _ _ => True
  | list _ items => listRule items = .ok ()
  | struct _ fields => (fields.map Prod.fst).Nodup ∧ ∀ f ∈ fields, ∃ t, typed f.2 = .ok t
  | field _ target name type =>
    ∃ ascribed span, (∀ a, ascribed = some a → T a) ∧
      fieldRule target name ascribed span = .ok type
  | offset _ target key => ∃ t, offsetRule target key = .ok t

end Expr

namespace Phrase

open Ascription.Expr

variable {r : Registry} {T : Ty → Prop}

mutual

/-- **The tree of a phrase obeys the rules everywhere**, and so do the declarations behind it. -/
theorem elaborate_ruled (hr : ∀ {w t}, r.resolve w = .ok t → T t) : ∀ (u : Phrase)
    {ds : Declarations} {e : Expr} {ds' : Declarations}, (∀ d ∈ ds, T d.type) →
      elaborate r u ds = .ok (e, ds') → Everywhere (Ruled T) e ∧ ∀ d ∈ ds', T d.type
  | .declaration name span type body, ds, e, ds', hd, h => by
      obtain ⟨t, ds₁, ht, hdecl, he⟩ := elaborate_declaration.mp h
      obtain ⟨-, rfl⟩ := Declarations.declare_eq_ok.mp hdecl
      refine elaborate_ruled hr body (fun d hmem => ?_) he
      obtain hmem | hmem := List.mem_append.mp hmem
      · exact hd d hmem
      · obtain rfl := List.mem_singleton.mp hmem
        exact hr ht
  | .reference span name none, ds, e, ds', hd, h => by
      obtain ⟨d, hfind, rfl, rfl⟩ := elaborate_reference.mp h
      exact ⟨.node (hd d (Declarations.find?_mem hfind)) nofun, hd⟩
  | .reference span name (some ascribed), ds, e, ds', hd, h => by
      obtain ⟨t, t', ht, hcheck, rfl, rfl⟩ := elaborate_annotated.mp h
      obtain rfl := Declarations.checkAnnotated_eq_ok hcheck
      exact ⟨.node (hr ht) nofun, hd⟩
  | .literal span value, ds, e, ds', hd, h => by
      obtain ⟨rfl, rfl⟩ := elaborate_literal.mp h
      exact ⟨.node trivial nofun, hd⟩
  | .binary op left right, ds, e, ds', hd, h => by
      obtain ⟨a, ds₁, b, ha, hb, hrule, rfl⟩ := elaborate_binary.mp h
      obtain ⟨hl, hd₁⟩ := elaborate_ruled hr left hd ha
      obtain ⟨hright, hd₂⟩ := elaborate_ruled hr right hd₁ hb
      refine ⟨.node hrule fun c hc => ?_, hd₂⟩
      obtain rfl | rfl : c = a ∨ c = b := by simpa [children] using hc
      · exact hl
      · exact hright
  | .negative start operand, ds, e, ds', hd, h => by
      obtain ⟨a, ha, hrule, rfl⟩ := elaborate_negative.mp h
      obtain ⟨ho, hd₁⟩ := elaborate_ruled hr operand hd ha
      exact ⟨.node hrule fun c hc => List.mem_singleton.mp hc ▸ ho, hd₁⟩
  | .call target name result args stop, ds, e, ds', hd, h => by
      obtain ⟨a, ds₁, t, es, ha, ht, hes, rfl⟩ := elaborate_call.mp h
      obtain ⟨hta, hd₁⟩ := elaborate_ruled hr target hd ha
      obtain ⟨hargs, hd₂⟩ := elaborateAll_ruled hr args hd₁ (by simp) hes
      refine ⟨.node (hr ht) fun c hc => ?_, hd₂⟩
      obtain rfl | hc := List.mem_cons.mp hc
      · exact hta
      · exact hargs c hc
  | .lambda start params body, ds, e, ds', hd, h => by
      obtain ⟨a, ha, rfl⟩ := elaborate_lambda.mp h
      obtain ⟨hb, hd₁⟩ := elaborate_ruled hr body hd ha
      exact ⟨.node trivial fun c hc => List.mem_singleton.mp hc ▸ hb, hd₁⟩
  | .list span items, ds, e, ds', hd, h => by
      obtain ⟨es, hes, hrule, rfl⟩ := elaborate_list.mp h
      obtain ⟨hitems, hd₁⟩ := elaborateAll_ruled hr items hd (by simp) hes
      exact ⟨.node hrule hitems, hd₁⟩
  | .struct span fields, ds, e, ds', hd, h => by
      obtain ⟨fs, hfs, rfl⟩ := elaborate_struct.mp h
      obtain ⟨hnodup, hfields, hd₁⟩ := elaborateFields_ruled hr fields hd (by simp) (by simp) hfs
      refine ⟨.node ⟨hnodup, fun f hf => (hfields f hf).2⟩ fun c hc => ?_, hd₁⟩
      obtain ⟨f, hf, rfl⟩ := List.mem_map.mp hc
      exact (hfields f hf).1
  | .field target name span ascribed stop, ds, e, ds', hd, h => by
      obtain ⟨a, t, t', ha, ht, hrule, rfl⟩ := elaborate_field.mp h
      obtain ⟨hta, hd₁⟩ := elaborate_ruled hr target hd ha
      refine ⟨.node ⟨t, span, ?_, hrule⟩ fun c hc => List.mem_singleton.mp hc ▸ hta, hd₁⟩
      rintro b rfl
      cases ascribed with
      | none => cases ht
      | some w =>
        obtain ⟨b', hw, hb⟩ := Except.map_eq_ok.mp ht
        cases hb
        exact hr hw
  | .offset target key stop, ds, e, ds', hd, h => by
      obtain ⟨a, ds₁, k, t, ha, hk, hrule, rfl⟩ := elaborate_offset.mp h
      obtain ⟨hta, hd₁⟩ := elaborate_ruled hr target hd ha
      obtain ⟨hkey, hd₂⟩ := elaborate_ruled hr key hd₁ hk
      refine ⟨.node ⟨t, hrule⟩ fun c hc => ?_, hd₂⟩
      obtain rfl | rfl : c = a ∨ c = k := by simpa [children] using hc
      · exact hta
      · exact hkey

theorem elaborateAll_ruled (hr : ∀ {w t}, r.resolve w = .ok t → T t) : ∀ (us : List Phrase)
    {ds : Declarations} {done es : List Expr} {ds' : Declarations}, (∀ d ∈ ds, T d.type) →
      (∀ e ∈ done, Everywhere (Ruled T) e) →
      elaborateAll r done us ds = .ok (es, ds') →
        (∀ e ∈ es, Everywhere (Ruled T) e) ∧ ∀ d ∈ ds', T d.type
  | [], _, _, _, _, hd, hdone, h => by
      cases h
      exact ⟨hdone, hd⟩
  | u :: us, ds, done, es, ds', hd, hdone, h => by
      obtain ⟨⟨e, ds₁⟩, he, h⟩ := Except.bind_eq_ok.mp h
      obtain ⟨hu, hd₁⟩ := elaborate_ruled hr u hd he
      refine elaborateAll_ruled hr us hd₁ (fun c hc => ?_) h
      obtain hc | hc := List.mem_append.mp hc
      · exact hdone c hc
      · exact List.mem_singleton.mp hc ▸ hu

theorem elaborateFields_ruled (hr : ∀ {w t}, r.resolve w = .ok t → T t) :
    ∀ (us : List (String × Span × Phrase)) {ds : Declarations} {done fs : List (String × Expr)}
      {ds' : Declarations}, (∀ d ∈ ds, T d.type) →
      (done.map Prod.fst).Nodup →
      (∀ f ∈ done, Everywhere (Ruled T) f.2 ∧ ∃ t, typed f.2 = .ok t) →
      elaborateFields r done us ds = .ok (fs, ds') →
        (fs.map Prod.fst).Nodup ∧
          (∀ f ∈ fs, Everywhere (Ruled T) f.2 ∧ ∃ t, typed f.2 = .ok t) ∧ ∀ d ∈ ds', T d.type
  | [], _, _, _, _, hd, hnodup, hdone, h => by
      cases h
      exact ⟨hnodup, hdone, hd⟩
  | (name, span, u) :: us, ds, done, es, ds', hd, hnodup, hdone, h => by
      rw [elaborateFields] at h
      split at h
      · cases ruled_eq_ok.mp h
      case isFalse hnew =>
        obtain ⟨⟨e, ds₁⟩, he, h⟩ := Except.bind_eq_ok.mp h
        obtain ⟨t, ht, h⟩ := Except.bind_eq_ok.mp h
        obtain ⟨hu, hd₁⟩ := elaborate_ruled hr u hd he
        refine elaborateFields_ruled hr us hd₁ ?_ (fun c hc => ?_) h
        · exact Entries.nodup_concat hnodup (by simpa using hnew)
        · obtain hc | hc := List.mem_append.mp hc
          · exact hdone c hc
          · obtain rfl := List.mem_singleton.mp hc
            exact ⟨hu, t, ruled_eq_ok.mp ht⟩

end

end Phrase

end Ascription
