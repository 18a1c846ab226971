import Ascription.Proofs.Expr.Spans

/-!
# Proofs/Phrase/Reads — phrases that are elaborated to a given tree

    Reads r e u :  the second pass gives u the tree e, with other spans, and declares nothing

One lemma for each form: a phrase reads as a node when its parts read as the parts, the rule of the
node accepts the node and its types are written on it.
-/

namespace Ascription

open Ascription.Expr (Ruled eraseSpans eraseAll eraseFields)

/-- **A phrase reads as an expression**, apart from its spans. -/
def Reads (r : Registry) (e : Expr) (u : Phrase) : Prop :=
  ∃ e' : Expr, Phrase.elaborate r u [] = .ok (e', []) ∧ e'.eraseSpans = e.eraseSpans

/-- Phrases read as the expressions of a list, behind any others. -/
def ReadsAll (r : Registry) (es : List Expr) (us : List Phrase) : Prop :=
  ∃ es', (∀ done, Phrase.elaborateAll r done us [] = .ok (done ++ es', [])) ∧
    eraseAll es' = eraseAll es

/-- Fields read as those of a struct literal, behind any others with other names. -/
def ReadsFields (r : Registry) (fs : List (String × Expr)) (us : List (String × Span × Phrase)) :
    Prop :=
  ∃ fs', (∀ done : List (String × Expr), ((done ++ fs).map Prod.fst).Nodup →
      Phrase.elaborateFields r done us [] = .ok (done ++ fs', [])) ∧
    eraseFields fs' = eraseFields fs

/-- A field reads as one of a struct literal. -/
def ReadsField (r : Registry) (f : String × Expr) (x : String × Span × Phrase) : Prop :=
  x.1 = f.1 ∧ Reads r f.2 x.2.2 ∧ ∃ t, Phrase.typed f.2 = .ok t

namespace Reads

variable {r : Registry} {T : Ty → Prop} {span : Span} {a b : Expr} {u v : Phrase} {n : String}
  {t : Ty} {w : TypeExpr}

theorem get (ht : r.resolve w = .ok t) {s : Span} :
    Reads r (.get span n t) (.reference s n (some w)) :=
  ⟨.get s n t, Phrase.elaborate_annotated.mpr ⟨t, t, ht, rfl, rfl, rfl⟩, rfl⟩

theorem literal {value : Literal} {s : Span} :
    Reads r (.literal span value) (.literal s value) :=
  ⟨.literal s value, rfl, rfl⟩

/-- The node that the parts make has the erasure of the node. -/
theorem binary {op : BinaryOp} (hrule : (Expr.binary span op a b).Ruled T) (ha : Reads r a u)
    (hb : Reads r b v) : Reads r (.binary span op a b) (.binary op u v) := by
  obtain ⟨a', hu, ha⟩ := ha
  obtain ⟨b', hv, hb⟩ := hb
  have herase : (Expr.binary (Span.merge a'.span b'.span) op a' b').eraseSpans =
      (Expr.binary span op a b).eraseSpans := by rw [eraseSpans, eraseSpans, ha, hb]
  exact ⟨_, Phrase.elaborate_binary.mpr ⟨a', [], b', hu, hv, hrule.of_eraseSpans herase, rfl⟩,
    herase⟩

theorem negative {s : Span} (hrule : (Expr.negative span a).Ruled T) (ha : Reads r a u) :
    Reads r (.negative span a) (.negative s u) := by
  obtain ⟨a', hu, ha⟩ := ha
  have herase : (Expr.negative (Span.merge s a'.span) a').eraseSpans =
      (Expr.negative span a).eraseSpans := by rw [eraseSpans, eraseSpans, ha]
  exact ⟨_, Phrase.elaborate_negative.mpr ⟨a', hu, hrule.of_eraseSpans herase, rfl⟩, herase⟩

theorem call {args : List Expr} {us : List Phrase} {s : Span} (ht : r.resolve w = .ok t)
    (ha : Reads r a u) (hargs : ReadsAll r args us) :
    Reads r (.call span a n t args) (.call u n w us s) := by
  obtain ⟨a', hu, ha⟩ := ha
  obtain ⟨args', hus, hargs⟩ := hargs
  refine ⟨_, Phrase.elaborate_call.mpr ⟨a', [], t, args', hu, ht, hus [], rfl⟩, ?_⟩
  rw [eraseSpans, eraseSpans, ha, hargs]

theorem lambda {params : List String} {s : Span} (ha : Reads r a u) :
    Reads r (.lambda span params a) (.lambda s params u) := by
  obtain ⟨a', hu, ha⟩ := ha
  refine ⟨_, Phrase.elaborate_lambda.mpr ⟨a', hu, rfl⟩, ?_⟩
  rw [eraseSpans, eraseSpans, ha]

theorem list {items : List Expr} {us : List Phrase} {s : Span}
    (hrule : (Expr.list span items).Ruled T) (hitems : ReadsAll r items us) :
    Reads r (.list span items) (.list s us) := by
  obtain ⟨items', hus, hitems⟩ := hitems
  have herase : (Expr.list s items').eraseSpans = (Expr.list span items).eraseSpans := by
    rw [eraseSpans, eraseSpans, hitems]
  exact ⟨_, Phrase.elaborate_list.mpr ⟨items', hus [], hrule.of_eraseSpans herase, rfl⟩, herase⟩

theorem struct {fs : List (String × Expr)} {us : List (String × Span × Phrase)} {s : Span}
    (hnodup : (fs.map Prod.fst).Nodup) (hfs : ReadsFields r fs us) :
    Reads r (.struct span fs) (.struct s us) := by
  obtain ⟨fs', hus, hfs⟩ := hfs
  refine ⟨_, Phrase.elaborate_struct.mpr ⟨fs', hus [] hnodup, rfl⟩, ?_⟩
  rw [eraseSpans, eraseSpans, hfs]

/-- The type of an access is what its rule gives for the type as annotation. -/
theorem field {s stop : Span} (hrule : (Expr.field span a n t).Ruled T) (ht : r.resolve w = .ok t)
    (ha : Reads r a u) : Reads r (.field span a n t) (.field u n s (some w) stop) := by
  obtain ⟨a', hu, ha⟩ := ha
  have herase : (Expr.field (Span.merge a'.span stop) a' n t).eraseSpans =
      (Expr.field span a n t).eraseSpans := by rw [eraseSpans, eraseSpans, ha]
  obtain ⟨ascribed, at', -, hfield⟩ := hrule.of_eraseSpans herase
  obtain ⟨target, htarget, hfield⟩ := Parser.fieldRule_eq_ok.mp hfield
  have hfield : Phrase.fieldRule a' n (some t) s = .ok t :=
    Parser.fieldRule_eq_ok.mpr ⟨target, htarget, Rule.fieldType_self hfield⟩
  exact ⟨_, Phrase.elaborate_field.mpr
    ⟨a', some t, t, hu, Except.map_eq_ok.mpr ⟨t, ht, rfl⟩, hfield, rfl⟩,
    herase⟩

theorem offset {stop : Span} (hrule : (Expr.offset span a b).Ruled T) (ha : Reads r a u)
    (hb : Reads r b v) : Reads r (.offset span a b) (.offset u v stop) := by
  obtain ⟨a', hu, ha⟩ := ha
  obtain ⟨b', hv, hb⟩ := hb
  have herase : (Expr.offset (Span.merge a'.span stop) a' b').eraseSpans =
      (Expr.offset span a b).eraseSpans := by rw [eraseSpans, eraseSpans, ha, hb]
  obtain ⟨t, hoffset⟩ := hrule.of_eraseSpans herase
  exact ⟨_, Phrase.elaborate_offset.mpr ⟨a', [], b', t, hu, hv, hoffset, rfl⟩, herase⟩

end Reads

/-! ## Lists -/

section

variable {r : Registry}

theorem ReadsAll.nil : ReadsAll r [] [] := ⟨[], fun done => by simp, rfl⟩

theorem ReadsAll.cons {e : Expr} {u : Phrase} {es : List Expr} {us : List Phrase}
    (he : Reads r e u) (hes : ReadsAll r es us) : ReadsAll r (e :: es) (u :: us) := by
  obtain ⟨e', hu, he⟩ := he
  obtain ⟨es', hus, hes⟩ := hes
  refine ⟨e' :: es', fun done => ?_, by rw [eraseAll, eraseAll, he, hes]⟩
  rw [Phrase.elaborateAll, hu]
  exact (hus (done ++ [e'])).trans (by simp)

theorem ReadsFields.nil : ReadsFields r [] [] := ⟨[], fun done _ => by simp, rfl⟩

theorem ReadsFields.cons {f : String × Expr} {x : String × Span × Phrase}
    {fs : List (String × Expr)} {us : List (String × Span × Phrase)} (hf : ReadsField r f x)
    (hfs : ReadsFields r fs us) : ReadsFields r (f :: fs) (x :: us) := by
  obtain ⟨n, e⟩ := f
  obtain ⟨n', s, u⟩ := x
  obtain ⟨hn, ⟨e', hu, he⟩, t, ht⟩ := hf
  obtain rfl : n' = n := hn
  obtain ⟨fs', hus, hfs⟩ := hfs
  refine ⟨(n', e') :: fs', fun done hnodup => ?_, by rw [eraseFields, eraseFields, he, hfs]⟩
  have hnew : Entries.contains done n' = false := by
    rw [Entries.contains_eq_false]
    intro hn
    rw [List.map_append, List.nodup_append] at hnodup
    exact hnodup.2.2 n' hn n' (by simp) rfl
  have htype : e.type? = e'.type? := by
    rw [← Expr.type?_eraseSpans, ← he, Expr.type?_eraseSpans]
  rw [Phrase.elaborateFields, if_neg (by simp [hnew]), hu]
  change (Phrase.ruled (Phrase.typed e') >>= _) = _
  rw [Expr.typed_congr htype ht]
  refine (hus (done ++ [(n', e')]) ?_).trans (by simp)
  simpa using hnodup

end

end Ascription
