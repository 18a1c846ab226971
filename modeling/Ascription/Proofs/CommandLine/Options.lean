import Ascription.CommandLine.Options
import Ascription.Proofs.Except
import Mathlib.Data.List.Forall2

/-!
# Proofs/CommandLine/Options — the order of the arguments does not matter

    arguments  ──split──▸  groups  ──gather──▸  the parts of the options

A flag takes the argument behind it, whatever that looks like, so arguments fall into groups
in one way only.  Each part of the options gathers what its own groups bring, in their order,
and sees no others; the input is brought at most once, and it makes no difference how often
or where `--json` stands.
-/

namespace Ascription

namespace Options

/-! ## Groups -/

/-- **A group of arguments**: a flag with its value, or an argument that stands alone. -/
inductive Group
  | flagged (name : String) (flag : Flag) (spelled : flag? name = some flag) (value : String)
  | alone (arg : String) (spelled : flag? arg = none)
  deriving DecidableEq

namespace Group

/-- The arguments of a group. -/
def args : Group → List String
  | flagged name _ _ value => [name, value]
  | alone arg _ => [arg]

/-- Taking a group. -/
def apply (o : Options) : Group → Except OptionError Options
  | flagged _ flag _ value => o.applyFlag value flag
  | alone arg _ => o.applyWord arg

/-- The value a group gives for a flag. -/
def value? (f : Flag) : Group → Option String
  | flagged _ flag _ value => if flag = f then some value else none
  | alone .. => none

/-- The input a group brings. -/
def input? : Group → Option InputSource
  | flagged _ .file _ path => some (.file path)
  | flagged .. => none
  | alone arg _ => if arg = "--json" then none else some (.inline arg)

/-- Is the group the wish for JSON? -/
def isJson : Group → Bool
  | flagged .. => false
  | alone arg _ => arg = "--json"

/-- A group that is no unknown option. -/
def Known : Group → Prop
  | flagged .. => True
  | alone arg _ => arg = "--json" ∨ arg.startsWith "--" = false

end Group

variable {o o' : Options} {gs gs' : List Group}

theorem readFrom_args {g : Group} {rest : List String} :
    readFrom o (g.args ++ rest) = (g.apply o >>= fun o => readFrom o rest) := by
  cases g with
  | flagged name flag spelled value => exact readFrom.eq_2 _ _ _ _ _ spelled
  | alone arg spelled => exact readFrom.eq_4 _ _ _ spelled

/-- **Arguments in groups are taken group by group.** -/
theorem readFrom_flatMap : readFrom o (gs.flatMap Group.args) = gs.foldlM Group.apply o := by
  induction gs generalizing o with
  | nil => rfl
  | cons g gs ih =>
    rw [List.flatMap_cons, readFrom_args, List.foldlM_cons]
    exact congrArg _ (funext fun o => ih)

/-- Arguments that are read fall into groups. -/
theorem exists_groups {args : List String} (h : readFrom o args = .ok o') :
    ∃ gs : List Group, args = gs.flatMap Group.args := by
  fun_induction readFrom o args with
  | case1 => exact ⟨[], rfl⟩
  | case2 o arg f value rest hf ih =>
    obtain ⟨o₁, -, h⟩ := Except.bind_eq_ok.mp h
    obtain ⟨gs, rfl⟩ := ih o₁ h
    exact ⟨.flagged arg f hf value :: gs, rfl⟩
  | case3 => cases h
  | case4 o arg rest hf ih =>
    obtain ⟨o₁, -, h⟩ := Except.bind_eq_ok.mp h
    obtain ⟨gs, rfl⟩ := ih o₁ h
    exact ⟨.alone arg hf :: gs, rfl⟩

/-- The arguments of a group show the group and where it ends. -/
theorem args_append_inj {g g' : Group} {rest rest' : List String}
    (h : g.args ++ rest = g'.args ++ rest') : g = g' ∧ rest = rest' := by
  cases g with
  | flagged name flag spelled value =>
    cases g' with
    | flagged name' flag' spelled' value' =>
      obtain ⟨rfl, rfl, rfl⟩ : name = name' ∧ value = value' ∧ rest = rest' := by
        simpa [Group.args] using h
      cases spelled.symm.trans spelled'
      exact ⟨rfl, rfl⟩
    | alone arg spelled' =>
      obtain ⟨rfl, -⟩ := List.cons.inj h
      cases spelled.symm.trans spelled'
  | alone arg spelled =>
    cases g' with
    | flagged name flag spelled' value =>
      obtain ⟨rfl, -⟩ := List.cons.inj h
      cases spelled.symm.trans spelled'
    | alone arg' spelled' =>
      obtain ⟨rfl, rfl⟩ := List.cons.inj h
      exact ⟨rfl, rfl⟩

/-- **Arguments fall into groups in one way.** -/
theorem groups_unique (h : gs.flatMap Group.args = gs'.flatMap Group.args) : gs = gs' := by
  induction gs generalizing gs' with
  | nil =>
    cases gs' with
    | nil => rfl
    | cons g' gs' => cases g' <;> cases h
  | cons g gs ih =>
    cases gs' with
    | nil => cases g <;> cases h
    | cons g' gs' =>
      rw [List.flatMap_cons, List.flatMap_cons] at h
      obtain ⟨rfl, hrest⟩ := args_append_inj h
      rw [ih hrest]

/-! ## What the options gather -/

/-- The values given for a flag, in their order. -/
def given (f : Flag) (gs : List Group) : List String := gs.filterMap (Group.value? f)

/-- **Entries read from values stand behind those there were.** -/
def Collected {α : Type} (reads : String → α → Prop) (values : List String)
    (before after : List α) : Prop :=
  ∃ entries, List.Forall₂ reads values entries ∧ after = before ++ entries

theorem collected_nil {α : Type} {reads : String → α → Prop} {before after : List α} :
    Collected reads [] before after ↔ after = before := by
  simp [Collected]

theorem collected_cons {α : Type} {reads : String → α → Prop} {value : String}
    {values : List String} {before after : List α} :
    Collected reads (value :: values) before after ↔
      ∃ entry, reads value entry ∧ Collected reads values (before ++ [entry]) after := by
  simp only [Collected, List.forall₂_cons_left_iff, List.append_assoc, List.singleton_append]
  constructor
  · rintro ⟨_, ⟨entry, entries, hentry, hentries, rfl⟩, rfl⟩
    exact ⟨entry, hentry, entries, hentries, rfl⟩
  · rintro ⟨entry, hentry, entries, hentries, rfl⟩
    exact ⟨entry :: entries, ⟨entry, entries, hentry, hentries, rfl⟩, rfl⟩

/-- The alias that a value defines. -/
def ReadsAlias (spec : String) (entry : String × String) : Prop :=
  ∃ name type, Split.once '=' spec = some (name, type) ∧ entry = (Split.trim name, Split.trim type)

/-- **What groups make of options**, part by part. -/
structure Gathered (o : Options) (gs : List Group) (o' : Options) : Prop where
  known : ∀ g ∈ gs, g.Known
  input : o'.input.toList = o.input.toList ++ gs.filterMap Group.input?
  variableArgs : Collected (fun spec v => readVariable spec = .ok v) (given .variable_ gs)
    o.variableArgs o'.variableArgs
  aliases : Collected ReadsAlias (given .typeAlias gs) o.aliases o'.aliases
  aliasFiles : o'.aliasFiles = o.aliasFiles ++ given .aliasFile gs
  expect : o'.expect = (given .expect gs).getLast?.or o.expect
  json : o'.json = (o.json || gs.any Group.isJson)

theorem setInput_eq_ok {input : InputSource} :
    o.setInput input = .ok o' ↔ o.input = none ∧ o' = { o with input := some input } := by
  rw [setInput]
  split
  case isTrue h => simp [Option.isSome_iff_ne_none.mp h]
  case isFalse h => simp [Option.not_isSome_iff_eq_none.mp h, eq_comm]

/-- An input that is brought first of all is the only one. -/
theorem input_eq_none {before after : Option InputSource} {input : InputSource}
    {others : List InputSource} (h : after.toList = before.toList ++ input :: others) :
    before = none := by
  cases before with
  | none => rfl
  | some first => cases after <;> simp at h

theorem getLast?_cons_or {value : String} {values : List String} {x : Option String} :
    (value :: values).getLast?.or x = values.getLast?.or (some value) := by
  rw [List.getLast?_cons]
  cases values.getLast? <;> rfl

/-- **A group that is taken changes its part alone.** -/
theorem Gathered.cons {g : Group} {o₁ : Options} (hg : g.apply o = .ok o₁) (h : Gathered o₁ gs o') :
    Gathered o (g :: gs) o' := by
  cases g with
  | flagged name flag spelled value =>
    have hknown : ∀ g ∈ .flagged name flag spelled value :: gs, Group.Known g :=
      List.forall_mem_cons.mpr ⟨trivial, h.known⟩
    cases flag with
    | file =>
      obtain ⟨hnone, rfl⟩ := setInput_eq_ok.mp hg
      refine ⟨hknown, ?_, h.variableArgs, h.aliases, h.aliasFiles, h.expect, h.json⟩
      rw [h.input, hnone]
      rfl
    | variable_ =>
      obtain ⟨v, hv, hg⟩ := Except.bind_eq_ok.mp hg
      cases hg
      exact ⟨hknown, h.input, collected_cons.mpr ⟨v, hv, h.variableArgs⟩, h.aliases, h.aliasFiles,
        h.expect, h.json⟩
    | typeAlias =>
      rw [Group.apply, applyFlag] at hg
      split at hg
      case h_1 name type hsplit =>
        cases hg
        exact ⟨hknown, h.input, h.variableArgs,
          collected_cons.mpr ⟨_, ⟨name, type, hsplit, rfl⟩, h.aliases⟩, h.aliasFiles, h.expect,
            h.json⟩
      case h_2 => cases hg
    | aliasFile =>
      cases hg
      refine ⟨hknown, h.input, h.variableArgs, h.aliases, ?_, h.expect, h.json⟩
      rw [h.aliasFiles, List.append_assoc]
      rfl
    | expect =>
      cases hg
      refine ⟨hknown, h.input, h.variableArgs, h.aliases, h.aliasFiles, ?_, h.json⟩
      exact h.expect.trans getLast?_cons_or.symm
  | alone arg spelled =>
    rw [Group.apply, applyWord] at hg
    split at hg
    case isTrue hjson =>
      subst hjson
      cases hg
      refine ⟨List.forall_mem_cons.mpr ⟨.inl rfl, h.known⟩, h.input, h.variableArgs, h.aliases,
        h.aliasFiles, h.expect, ?_⟩
      rw [h.json]
      simp [Group.isJson]
    case isFalse hjson =>
      split at hg
      case isTrue => cases hg
      case isFalse hplain =>
        obtain ⟨hnone, rfl⟩ := setInput_eq_ok.mp hg
        refine ⟨List.forall_mem_cons.mpr ⟨.inr (by simpa using hplain), h.known⟩, ?_,
          h.variableArgs, h.aliases, h.aliasFiles, h.expect, ?_⟩
        · rw [h.input, hnone, List.filterMap_cons, Group.input?, if_neg hjson]
          rfl
        · rw [h.json]
          simp [Group.isJson, hjson]

/-- **A group whose part gathers it is taken.** -/
theorem Gathered.uncons {g : Group} (h : Gathered o (g :: gs) o') :
    ∃ o₁, g.apply o = .ok o₁ ∧ Gathered o₁ gs o' := by
  obtain ⟨hg, hknown⟩ := List.forall_mem_cons.mp h.known
  cases g with
  | flagged name flag spelled value =>
    cases flag with
    | file =>
      refine ⟨_, setInput_eq_ok.mpr ⟨input_eq_none h.input, rfl⟩, hknown, ?_, h.variableArgs,
        h.aliases, h.aliasFiles, h.expect, h.json⟩
      rw [h.input, input_eq_none h.input]
      rfl
    | variable_ =>
      obtain ⟨v, hv, hvariables⟩ := collected_cons.mp h.variableArgs
      exact ⟨_, Except.bind_eq_ok.mpr ⟨v, hv, rfl⟩, hknown, h.input, hvariables, h.aliases,
        h.aliasFiles, h.expect, h.json⟩
    | typeAlias =>
      obtain ⟨_, ⟨name, type, hsplit, rfl⟩, haliases⟩ := collected_cons.mp h.aliases
      refine ⟨{ o with aliases := o.aliases ++ [(Split.trim name, Split.trim type)] }, ?_, hknown,
        h.input, h.variableArgs, haliases, h.aliasFiles, h.expect, h.json⟩
      rw [Group.apply, applyFlag, hsplit]
    | aliasFile =>
      refine ⟨_, rfl, hknown, h.input, h.variableArgs, h.aliases, ?_, h.expect, h.json⟩
      rw [h.aliasFiles, List.append_assoc]
      rfl
    | expect =>
      exact ⟨_, rfl, hknown, h.input, h.variableArgs, h.aliases, h.aliasFiles,
        h.expect.trans getLast?_cons_or, h.json⟩
  | alone arg spelled =>
    by_cases hjson : arg = "--json"
    · subst hjson
      refine ⟨_, rfl, hknown, h.input, h.variableArgs, h.aliases, h.aliasFiles, h.expect, ?_⟩
      rw [h.json]
      simp [Group.isJson]
    · have hplain : ¬ arg.startsWith "--" = true := by simpa using hg.resolve_left hjson
      have hinput : o'.input.toList =
          o.input.toList ++ .inline arg :: gs.filterMap Group.input? := by
        rw [h.input, List.filterMap_cons, Group.input?, if_neg hjson]
      refine ⟨{ o with input := some (.inline arg) }, ?_, hknown, ?_, h.variableArgs, h.aliases,
        h.aliasFiles, h.expect, ?_⟩
      · rw [Group.apply, applyWord, if_neg hjson, if_neg hplain]
        exact setInput_eq_ok.mpr ⟨input_eq_none hinput, rfl⟩
      · rw [hinput, input_eq_none hinput]
        rfl
      · rw [h.json]
        simp [Group.isJson, hjson]

theorem gathered_nil : Gathered o [] o' ↔ o = o' := by
  constructor
  · intro h
    have hinput : o'.input = o.input := Option.ext fun i => by
      rw [← Option.mem_toList, ← Option.mem_toList, h.input, List.filterMap_nil, List.append_nil]
    have hvariables := collected_nil.mp h.variableArgs
    have haliases := collected_nil.mp h.aliases
    have hfiles : o'.aliasFiles = o.aliasFiles := by simpa [given] using h.aliasFiles
    have hjson : o'.json = o.json := by simpa using h.json
    cases o
    cases o'
    cases hinput
    cases hvariables
    cases haliases
    cases hfiles
    cases h.expect
    cases hjson
    rfl
  · rintro rfl
    exact ⟨List.forall_mem_nil _, by simp, collected_nil.mpr rfl, collected_nil.mpr rfl,
      by simp [given], rfl, by simp⟩

/-- **Groups are taken exactly where each part gathers its own.** -/
theorem foldlM_apply_eq_ok : gs.foldlM Group.apply o = .ok o' ↔ Gathered o gs o' := by
  induction gs generalizing o with
  | nil =>
    rw [gathered_nil, List.foldlM_nil]
    exact ⟨Except.ok.inj, congrArg _⟩
  | cons g gs ih =>
    simp only [List.foldlM_cons, Except.bind_eq_ok, ih]
    exact ⟨fun ⟨_, hg, h⟩ => h.cons hg, Gathered.uncons⟩

/-! ## Groups in another order -/

/-- **The same groups**, of which those for one flag keep their order, that for the input apart. -/
structure Rearranged (gs gs' : List Group) : Prop where
  perm : gs.Perm gs'
  ordered : ∀ f, f ≠ .file →
    gs.filter (fun g => (g.value? f).isSome) = gs'.filter fun g => (g.value? f).isSome

theorem given_filter {f : Flag} :
    given f (gs.filter fun g => (g.value? f).isSome) = given f gs := by
  rw [given, given, List.filterMap_filter]
  refine List.filterMap_congr fun g _ => ?_
  cases g.value? f <;> rfl

theorem Rearranged.given_eq (h : Rearranged gs gs') (f : Flag) (hf : f ≠ .file) :
    given f gs = given f gs' := by
  rw [← given_filter, h.ordered f hf, given_filter]

/-- **Each part gathers the same from the same groups**: there is only one input to bring. -/
theorem Gathered.rearranged (h : Gathered o gs o') (hgs : Rearranged gs gs') :
    Gathered o gs' o' where
  known g hg := h.known g (hgs.perm.mem_iff.mpr hg)
  input := by
    have hperm : o'.input.toList.Perm (o.input.toList ++ gs'.filterMap Group.input?) := by
      rw [h.input]
      exact (hgs.perm.filterMap _).append_left _
    cases hinput : o'.input with
    | none =>
      rw [hinput] at hperm
      exact (List.nil_perm.mp hperm).symm
    | some input =>
      rw [hinput] at hperm
      exact List.singleton_perm.mp hperm
  variableArgs := hgs.given_eq .variable_ (by decide) ▸ h.variableArgs
  aliases := hgs.given_eq .typeAlias (by decide) ▸ h.aliases
  aliasFiles := hgs.given_eq .aliasFile (by decide) ▸ h.aliasFiles
  expect := hgs.given_eq .expect (by decide) ▸ h.expect
  json := by rw [h.json, hgs.perm.any_eq]

/-- **Arguments may be interleaved freely.**  Arguments that are read fall into groups in one way,
each a flag with the argument behind it or an argument that stands alone; and the same groups in any
other order that keeps the values of each flag in theirs are read as the same options. -/
theorem read_interleaved {args : List String} (h : read args = .ok o) :
    ∃ gs : List Group, args = gs.flatMap Group.args ∧
      (∀ gs', args = gs'.flatMap Group.args → gs' = gs) ∧
      ∀ gs', Rearranged gs gs' → read (gs'.flatMap Group.args) = .ok o := by
  obtain ⟨gs, rfl⟩ := exists_groups h
  refine ⟨gs, rfl, fun gs' h' => (groups_unique h').symm, fun gs' hgs => ?_⟩
  rw [read, readFrom_flatMap, foldlM_apply_eq_ok] at h ⊢
  exact h.rearranged hgs

/-- The value of a flag may look like a flag: here `--json` is what is expected, and a wish
for JSON behind that. -/
theorem read_interleaved_json :
    let o : Options := ⟨some (.inline "x:T"), [⟨"x", some "T", "{}"⟩, ⟨"y", none, "1=1"⟩],
      [("T", "any")], ["t.json"], some "--json", true⟩
    read ["--expect", "--json", "--var", "x:T={}", "x:T", "--json", "--var", "y=1=1", "--alias",
      "T=any", "--aliases", "t.json"] = .ok o ∧
    read ["--aliases", "t.json", "--json", "--var", "x:T={}", "--alias", "T=any", "--var", "y=1=1",
      "x:T", "--expect", "--json"] = .ok o := by
  intro o
  have hread : read ["--expect", "--json", "--var", "x:T={}", "x:T", "--json", "--var", "y=1=1",
      "--alias", "T=any", "--aliases", "t.json"] = .ok o := by decide +kernel
  refine ⟨hread, ?_⟩
  let expect : Group := .flagged "--expect" .expect rfl "--json"
  let first : Group := .flagged "--var" .variable_ rfl "x:T={}"
  let second : Group := .flagged "--var" .variable_ rfl "y=1=1"
  let typeAlias : Group := .flagged "--alias" .typeAlias rfl "T=any"
  let file : Group := .flagged "--aliases" .aliasFile rfl "t.json"
  let expression : Group := .alone "x:T" rfl
  let json : Group := .alone "--json" rfl
  obtain ⟨gs, -, hunique, hread'⟩ := read_interleaved hread
  obtain rfl := hunique [expect, first, expression, json, second, typeAlias, file] rfl
  refine hread' [file, json, first, typeAlias, second, expression, expect]
    ⟨by decide, fun f _ => ?_⟩
  cases f <;> rfl

end Options

end Ascription
