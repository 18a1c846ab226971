import Ascription.Proofs.Text.Renders
import Ascription.Proofs.Ty.Printable

/-!
# Proofs/Ty/Text — the text of a type reads as the type

By induction on how the type can be written, one case for each production of the grammar of types.
-/

namespace Ascription

open Grammar Lexer

/-- A word ends here: a reserved character is next, or nothing. -/
def Breaks (cs : List Char) : Prop := ∀ c ∈ cs.head?, isReserved c = true

/-- The word that would open type arguments is not next. -/
def NotLess (ks : List TokenKind) : Prop := ks.head? ≠ some (.punct .less)

theorem breaks_cons {c : Char} {cs : List Char} (h : isReserved c = true) : Breaks (c :: cs) := by
  rintro d ⟨⟩
  exact h

theorem breaks_nil : Breaks [] := by
  rintro c ⟨⟩

theorem notLess_nil : NotLess [] := by
  rintro ⟨⟩

theorem notLess_cons {k : TokenKind} {ks : List TokenKind} (h : k ≠ .punct .less) :
    NotLess (k :: ks) := fun hk => h (Option.some.inj hk)

namespace Ty

theorem textAll_eq_map {ts : List Ty} : textAll ts = ts.map text := by
  induction ts with
  | nil => rfl
  | cons t ts ih => rw [textAll, ih, List.map_cons]

theorem textFields_eq_map {fs : List (String × Ty)} :
    textFields fs = fs.map fun f => f.1 ++ ": " ++ f.2.text := by
  induction fs with
  | nil => rfl
  | cons f fs ih => rw [textFields, ih, List.map_cons]

end Ty

namespace Registry

variable {r : Registry} {n : String} {t : Ty}

theorem primitive?_text (h : primitive? n = some t) : t.text = n ∧ IsName n.toList ∧ n ≠ "fn" := by
  unfold primitive? at h
  split at h
  case h_8 => cases h
  all_goals
    cases h
    exact ⟨rfl, by decide, by decide⟩

theorem wrapper?_text {wrap : Ty → Ty} (h : wrapper? n = some wrap) :
    (wrap t).text = n ++ "<" ++ t.text ++ ">" ∧ IsName n.toList := by
  unfold wrapper? at h
  split at h
  case h_4 => cases h
  all_goals
    cases h
    exact ⟨by rw [Ty.text]; rfl, by decide⟩

/-- A type that is written as a name. -/
theorem renders_name (hn : IsName n.toList) (hfn : n ≠ "fn")
    (ht : ∀ s, r.resolve (.named s n []) = .ok t) :
    Renders Breaks NotLess TypeName n fun w => r.resolve w = .ok t := by
  intro rest after hq ha hrest
  refine ⟨.name n :: after, .name hn hq hrest, fun c hc => ?_⟩
  obtain ⟨p, s, ts, rfl, hts⟩ := Place.kinds_eq_cons hc
  have hless : Place.next ⟨s, ts⟩ ≠ some (.punct .less) := by rwa [Place.next_eq, hts]
  exact ⟨_, _, .name hless fun h => absurd h hfn, hts, ht s⟩

/-- A type that is written as a name with arguments. -/
theorem renders_applied {text : String} {L : List TypeExpr → Prop} (hn : IsName n.toList)
    (hargs : Renders Breaks NotLess (Listed TypeName) text L)
    (ht : ∀ s ws, L ws → r.resolve (.named s n ws) = .ok t) :
    Renders Breaks NotLess TypeName (n ++ "<" ++ text ++ ">") fun w => r.resolve w = .ok t := by
  intro rest after hq ha hrest
  obtain ⟨kinds, hlex, hread⟩ := hargs (breaks_cons (by rfl)) (notLess_cons (by decide))
    (.char '>' .greater rfl trivial hrest)
  refine ⟨.name n :: .punct .less :: kinds, ?_, fun c hc => ?_⟩
  · simpa using Lexes.name hn (breaks_cons rfl) (.char '<' .less rfl trivial hlex)
  · obtain ⟨p, s, ts, rfl, hts⟩ := Place.kinds_eq_cons hc
    obtain ⟨s₁, ts₁, rfl, hts₁⟩ := Place.kinds_cons hts
    obtain ⟨ws, c', hlist, hc', hws⟩ := hread _ hts₁
    obtain ⟨p', s₂, ts₂, rfl, hts₂⟩ := Place.kinds_eq_cons hc'
    exact ⟨_, _, .applied hlist, hts₂, ht _ ws hws⟩

/-- What the words of a list of types denote. -/
theorem renders_types {ts : List Ty}
    (h : ∀ t ∈ ts, Renders Breaks NotLess TypeName t.text fun w => r.resolve w = .ok t) :
    Renders Breaks NotLess (Listed TypeName) (", ".intercalate (ts.map Ty.text)) fun ws =>
      r.resolveAll ws = .ok ts := by
  refine renders_listed (L := fun ts ws => r.resolveAll ws = .ok ts) rfl ?_
    (fun cs => breaks_cons rfl) (fun ks => notLess_cons (by decide)) h
  intro t w ts ws ht hts
  rw [resolveAll, ht]
  change (r.resolveAll ws >>= _) = _
  rw [hts]
  rfl

theorem resolveAll_cons_eq_ok {ws : List TypeExpr} {ts : List Ty}
    (h : r.resolveAll ws = .ok (t :: ts)) :
    ∃ w ws', ws = w :: ws' ∧ r.resolve w = .ok t ∧ r.resolveAll ws' = .ok ts := by
  cases ws with
  | nil => cases h
  | cons w ws =>
    obtain ⟨t', ht, h⟩ := Except.bind_eq_ok.mp h
    obtain ⟨ts', hts, h⟩ := Except.bind_eq_ok.mp h
    cases h
    exact ⟨w, ws, rfl, ht, hts⟩

theorem resolveAll_nil_eq_ok {ws : List TypeExpr} (h : r.resolveAll ws = .ok []) : ws = [] := by
  cases ws with
  | nil => rfl
  | cons w ws =>
    obtain ⟨t', ht, h⟩ := Except.bind_eq_ok.mp h
    obtain ⟨ts', hts, h⟩ := Except.bind_eq_ok.mp h
    cases h

theorem renders_func {result : Ty} {params : List Ty}
    (hresult : Renders Breaks NotLess TypeName result.text fun w => r.resolve w = .ok result)
    (hparams : ∀ p ∈ params, Renders Breaks NotLess TypeName p.text fun w => r.resolve w = .ok p) :
    Renders Breaks NotLess TypeName (Ty.func result params).text fun w =>
      r.resolve w = .ok (.func result params) := by
  intro rest after hq ha hrest
  obtain ⟨ks, hlex, hread⟩ := hresult hq ha hrest
  have harrow := Lexes.space (Lexes.mark (p := .arrow) trivial hlex.space)
  obtain ⟨ks', hlex', hread'⟩ := renders_types hparams (breaks_cons rfl)
    (notLess_cons (by decide)) (.char ')' .rightParen rfl trivial harrow)
  have hname := Lexes.name (n := "fn") (by decide) (breaks_cons rfl)
    (.char '(' .leftParen rfl trivial hlex')
  refine ⟨.name "fn" :: .punct .leftParen :: ks', ?_, fun c hc => ?_⟩
  · rw [Ty.text, Ty.textAll_eq_map]
    simpa [Punct.text] using hname
  · obtain ⟨p, s, ts, rfl, hts⟩ := Place.kinds_eq_cons hc
    obtain ⟨s₁, ts₁, rfl, hts₁⟩ := Place.kinds_cons hts
    obtain ⟨ws, c₁, hlist, hc₁, hws⟩ := hread' _ hts₁
    obtain ⟨p', s₂, ts₂, rfl, hts₂⟩ := Place.kinds_eq_cons hc₁
    obtain ⟨s₃, ts₃, rfl, hts₃⟩ := Place.kinds_cons hts₂
    obtain ⟨w, c₂, hw, hc₂, hres⟩ := hread _ hts₃
    refine ⟨_, c₂, .func hlist hw, hc₂, ?_⟩
    exact Except.bind_eq_ok.mpr ⟨params, hws, Except.bind_eq_ok.mpr ⟨result, hres, rfl⟩⟩

/-- A field of a struct type. -/
theorem renders_field {f : String × Ty} (hname : IsName f.1.toList)
    (h : Renders Breaks NotLess TypeName f.2.text fun w => r.resolve w = .ok f.2) :
    Renders Breaks NotLess TypeField (f.1 ++ ": " ++ f.2.text) fun x =>
      x.1 = f.1 ∧ r.resolve x.2.1 = .ok f.2 := by
  intro rest after hq ha hrest
  obtain ⟨ks, hlex, hread⟩ := h hq ha hrest
  have hname := Lexes.name hname (breaks_cons rfl) (.char ':' .colon rfl trivial hlex.space)
  refine ⟨.name f.1 :: .punct .colon :: ks, by simpa using hname, fun c hc => ?_⟩
  obtain ⟨p, s, ts, rfl, hts⟩ := Place.kinds_eq_cons hc
  obtain ⟨s₁, ts₁, rfl, hts₁⟩ := Place.kinds_cons hts
  obtain ⟨w, c', hw, hc', hres⟩ := hread _ hts₁
  exact ⟨_, c', .field hw, hc', rfl, hres⟩

theorem renders_struct {fields : List (String × Ty)} (hnodup : (fields.map Prod.fst).Nodup)
    (h : ∀ f ∈ fields, Renders Breaks NotLess TypeField (f.1 ++ ": " ++ f.2.text) fun x =>
      x.1 = f.1 ∧ r.resolve x.2.1 = .ok f.2) :
    Renders Breaks NotLess TypeName (Ty.struct fields).text fun w =>
      r.resolve w = .ok (.struct fields) := by
  intro rest after hq ha hrest
  -- the fields are resolved behind those already done
  have hlist := renders_listed (L := fun fs xs => ∀ done, ((done ++ fs).map Prod.fst).Nodup →
      r.resolveFields done xs = .ok (done ++ fs))
    (fun done _ => by rw [resolveFields, List.append_nil])
    ?_ (fun cs => breaks_cons rfl) (fun ks => notLess_cons (by decide)) h
  · obtain ⟨ks, hlex, hread⟩ := hlist (breaks_cons rfl) (notLess_cons (by decide))
      (.char '\x7d' .rightBrace rfl trivial hrest)
    refine ⟨.punct .leftBrace :: ks, ?_, fun c hc => ?_⟩
    · rw [Ty.text, Ty.textFields_eq_map]
      simpa using Lexes.char '\x7b' .leftBrace rfl trivial hlex
    · obtain ⟨p, s, ts, rfl, hts⟩ := Place.kinds_eq_cons hc
      obtain ⟨xs, c', hxs, hc', hfields⟩ := hread _ hts
      obtain ⟨p', s₁, ts₁, rfl, hts₁⟩ := Place.kinds_eq_cons hc'
      exact ⟨_, _, .struct hxs, hts₁, Except.bind_eq_ok.mpr ⟨fields, hfields [] hnodup, rfl⟩⟩
  · rintro ⟨n, t⟩ ⟨n', w, s⟩ fs xs ⟨hn, hw⟩ hxs done hnodup
    obtain rfl : n' = n := hn
    have hnew : Entries.contains done n' = false := by
      rw [Entries.contains_eq_false]
      intro hn
      rw [List.map_append, List.nodup_append] at hnodup
      exact hnodup.2.2 n' hn n' (by simp) rfl
    rw [resolveFields, if_neg (by simp [hnew])]
    have happend : done ++ (n', t) :: fs = done ++ [(n', t)] ++ fs := by simp
    refine Except.bind_eq_ok.mpr ⟨t, hw, ?_⟩
    rw [happend] at hnodup ⊢
    exact hxs _ hnodup

/-- **The text of a type reads as the type**, where no alias is named like the word of function
types. -/
theorem renders_type (hfn : r.alias? "fn" = none) (h : t.Printable r) :
    Renders Breaks NotLess TypeName t.text fun w => r.resolve w = .ok t := by
  induction h with
  | @primitive n t hp =>
    obtain ⟨htext, hn, hne⟩ := primitive?_text hp
    rw [htext]
    exact renders_name hn hne fun s => resolve_named_eq_ok.mpr (.inl ⟨rfl, hp⟩)
  | @wrapper n wrap t hw arg ih =>
    obtain ⟨htext, hn⟩ := wrapper?_text hw
    rw [htext]
    have harg : Renders Breaks NotLess (Listed TypeName) (", ".intercalate ([t].map Ty.text))
        fun ws => r.resolveAll ws = .ok [t] :=
      renders_types (List.forall_mem_cons.mpr ⟨ih, nofun⟩)
    refine renders_applied hn harg fun s ws hws => ?_
    obtain ⟨w, ws, rfl, ht, hws⟩ := resolveAll_cons_eq_ok hws
    obtain rfl := resolveAll_nil_eq_ok hws
    exact resolve_named_eq_ok.mpr (.inr (.inl ⟨wrap, w, t, hw, rfl, ht, rfl⟩))
  | @map k v hkey _ _ ihk ihv =>
    have htext : (Ty.map k v).text = "map" ++ "<" ++ ", ".intercalate [k.text, v.text] ++ ">" := by
      rw [Ty.text, String.intercalate_cons_cons, String.intercalate_singleton]
      simp [String.append_assoc]
    rw [htext]
    have hargs : Renders Breaks NotLess (Listed TypeName) (", ".intercalate ([k, v].map Ty.text))
        fun ws => r.resolveAll ws = .ok [k, v] :=
      renders_types (List.forall_mem_cons.mpr ⟨ihk, List.forall_mem_cons.mpr ⟨ihv, nofun⟩⟩)
    refine renders_applied (by decide) hargs fun s ws hws => ?_
    obtain ⟨wk, ws, rfl, hk, hws⟩ := resolveAll_cons_eq_ok hws
    obtain ⟨wv, ws, rfl, hv, hws⟩ := resolveAll_cons_eq_ok hws
    obtain rfl := resolveAll_nil_eq_ok hws
    exact resolve_named_eq_ok.mpr
      (.inr (.inr (.inl ⟨wk, wv, k, v, rfl, rfl, hk, hv, hkey, rfl⟩)))
  | func _ _ ihresult ihparams => exact renders_func ihresult ihparams
  | struct hnodup hnames _ ih =>
    exact renders_struct hnodup fun f hf => renders_field (hnames f hf) (ih f hf)
  | @aliased n t hn hp hw hm htarget =>
    have hne : n ≠ "fn" := by
      rintro rfl
      rw [hfn] at htarget
      cases htarget
    exact renders_name hn hne fun s =>
      resolve_named_eq_ok.mpr (.inr (.inr (.inr ⟨rfl, hp, hw, hm, htarget⟩)))

end Registry

end Ascription
