import Ascription.Diagnostic.Terminal
import Mathlib.Data.List.DropRight
import Mathlib.Data.List.Forall2
import Mathlib.Data.List.SplitBy

/-!
# Proofs/Diagnostic/Marks — a row marks the labelled columns

    1 | declare x: int x:string
      |         -      ^^^^^^^^

Painting a mark changes the blanks that it covers and nothing else, and never leaves the row.  So of
all the marks over a place the one that is painted first shows there.  Marks are painted in the
order of their roles: a caret shows wherever a primary label covers the place, and a dash where only
secondary ones do, in whatever order the labels come.
-/

namespace Ascription

namespace Terminal

variable {width i : Nat} {labels labels' : List Label} {row : List Char} {m : Mark}
  {marks : List Mark}

/-! ## What labels cover -/

/-- The column that a label on a line of `width` bytes stops at.  It is behind the line where the
label ends on another line, and behind the column that the label starts at. -/
def stopColumn (width : Nat) (l : Label) : Nat :=
  max (if l.span.stop.line = l.span.start.line then l.span.stop.column else width + 1)
    (l.span.start.column + 1)

/-- A label covers the places from the column it starts at to the one it stops at.  Places are
counted from zero, columns from one. -/
def Covers (width i : Nat) (l : Label) : Prop :=
  (l.span.start.column : Int) - 1 ≤ i ∧ (i : Int) < stopColumn width l - 1

instance : DecidablePred (Covers width i) := fun _ => inferInstanceAs (Decidable (_ ∧ _))

/-- Some label of a role covers a place. -/
def Covered (role : Role) (width i : Nat) (labels : List Label) : Prop :=
  ∃ l ∈ labels, l.role = role ∧ Covers width i l

instance {role : Role} : Decidable (Covered role width i labels) :=
  inferInstanceAs (Decidable (∃ l ∈ labels, _))

/-- The character at a place under labels. -/
def glyphAt (width : Nat) (labels : List Label) (i : Nat) : Char :=
  if Covered .primary width i labels then '^'
  else if Covered .secondary width i labels then '-'
  else ' '

/-- **The row that labels make** under a line of `width` bytes. -/
def rowOf (width : Nat) (labels : List Label) : List Char :=
  (List.range (width + 2)).map (glyphAt width labels)

theorem Covered.perm {role : Role} (h : labels.Perm labels') :
    Covered role width i labels ↔ Covered role width i labels' := by
  simp only [Covered, h.mem_iff]

/-- The order of the labels does not matter. -/
theorem rowOf_perm (h : labels.Perm labels') : rowOf width labels = rowOf width labels' :=
  List.map_congr_left fun i _ => by simp only [glyphAt, Covered.perm h]

/-! ## Painting -/

/-- What becomes of the character `c` at a place when a mark is painted. -/
def paintAt (i : Nat) (c : Char) (m : Mark) : Char :=
  if (m.first ≤ i + 1 ∧ i + 1 < m.last) ∧ c = ' ' then glyph m.role else c

/-- Painting a stretch of a row changes the places in it. -/
theorem paintStretch_eq {mark : Char} {start stop : Nat} (h : start ≤ stop)
    (hstop : stop ≤ row.length) : paintStretch mark start stop row =
      some (row.mapIdx fun i c => if (start ≤ i ∧ i < stop) ∧ c = ' ' then mark else c) := by
  rw [paintStretch, if_pos ⟨h, hstop⟩]
  refine congrArg some (List.ext_getElem? fun i => ?_)
  have hfront : (row.take start).length = start := List.length_take_of_le (Nat.le_trans h hstop)
  have hmiddle : (((row.take stop).drop start).map
      fun c => if c = ' ' then mark else c).length = stop - start := by
    rw [List.length_map, List.length_drop, List.length_take_of_le hstop]
  rw [List.getElem?_mapIdx]
  obtain hi | hi | hi : i < start ∨ (start ≤ i ∧ i < stop) ∨ stop ≤ i := by omega
  · have hout : ¬ (start ≤ i ∧ i < stop) := by omega
    rw [List.append_assoc, List.getElem?_append_left (by omega), List.getElem?_take_of_lt hi]
    simp [hout]
  · rw [List.append_assoc, List.getElem?_append_right (by omega), hfront,
      List.getElem?_append_left (by omega), List.getElem?_map, List.getElem?_drop,
      Nat.add_sub_cancel' hi.1, List.getElem?_take_of_lt hi.2]
    simp [hi]
  · have hout : ¬ (start ≤ i ∧ i < stop) := by omega
    have hlength : (row.take start ++ ((row.take stop).drop start).map
        fun c => if c = ' ' then mark else c).length = stop := by
      rw [List.length_append, hfront, hmiddle]
      omega
    rw [List.getElem?_append_right (by omega), hlength, List.getElem?_drop,
      Nat.add_sub_cancel' hi]
    simp [hout]

/-- **Painting a mark** changes the places that it covers. -/
theorem paint_eq (h : m.first < m.last) :
    paint row m = some (row.mapIdx fun i c => paintAt i c m) := by
  rw [paint, paintStretch_eq (by omega) (by omega)]
  refine congrArg some (List.mapIdx_eq_mapIdx_iff.mpr fun i hi => ?_)
  have hclip : (min (m.first - 1) row.length ≤ i ∧ i < min (m.last - 1) row.length) ↔
      (m.first ≤ i + 1 ∧ i + 1 < m.last) := by omega
  simp only [paintAt, hclip]

/-- Painting marks one after the other, each place goes its own way. -/
theorem foldlM_paint (h : ∀ m ∈ marks, m.first < m.last) :
    marks.foldlM paint row = some (row.mapIdx fun i c => marks.foldl (paintAt i) c) := by
  induction marks generalizing row with
  | nil => exact congrArg some (List.ext_getElem? fun i => by simp)
  | cons m marks ih =>
    obtain ⟨hm, hmarks⟩ := List.forall_mem_cons.mp h
    rw [List.foldlM_cons, paint_eq hm]
    refine (ih hmarks).trans (congrArg some ?_)
    rw [List.mapIdx_mapIdx]
    rfl

/-- What is painted stays. -/
theorem foldl_paintAt_of_ne {c : Char} (h : c ≠ ' ') : marks.foldl (paintAt i) c = c := by
  induction marks with
  | nil => rfl
  | cons m marks ih =>
    have hm : paintAt i c m = c := if_neg fun hblank => h hblank.2
    rw [List.foldl_cons, hm, ih]

theorem glyph_ne {role : Role} : glyph role ≠ ' ' := by cases role <;> decide

/-- Some mark of a role covers a place. -/
def Struck (role : Role) (i : Nat) (marks : List Mark) : Prop :=
  ∃ m ∈ marks, m.role = role ∧ m.first ≤ i + 1 ∧ i + 1 < m.last

instance {role : Role} : Decidable (Struck role i marks) :=
  inferInstanceAs (Decidable (∃ m ∈ marks, _))

/-- **The mark that shows** at a blank: where primary marks are painted first, they show
wherever there are any. -/
theorem foldl_paintAt
    (h : marks.Pairwise fun a b => a.role = .secondary → b.role = .secondary) :
    marks.foldl (paintAt i) ' ' =
      if Struck .primary i marks then '^' else if Struck .secondary i marks then '-' else ' ' := by
  induction marks with
  | nil => simp [Struck]
  | cons m marks ih =>
    obtain ⟨hm, hmarks⟩ := List.pairwise_cons.mp h
    rw [List.foldl_cons]
    by_cases hcover : m.first ≤ i + 1 ∧ i + 1 < m.last
    · have hpaint : paintAt i ' ' m = glyph m.role := if_pos ⟨hcover, rfl⟩
      rw [hpaint, foldl_paintAt_of_ne glyph_ne]
      cases hrole : m.role with
      | primary =>
        have hprimary : Struck .primary i (m :: marks) := ⟨m, List.mem_cons_self, hrole, hcover⟩
        rw [if_pos hprimary]
        rfl
      | secondary =>
        have hprimary : ¬ Struck .primary i (m :: marks) := by
          rintro ⟨m', hmem, hrole', -⟩
          obtain rfl | hmem := List.mem_cons.mp hmem
          · exact absurd (hrole.symm.trans hrole') nofun
          · exact absurd ((hm m' hmem hrole).symm.trans hrole') nofun
        have hsecondary : Struck .secondary i (m :: marks) :=
          ⟨m, List.mem_cons_self, hrole, hcover⟩
        rw [if_neg hprimary, if_pos hsecondary]
        rfl
    · have hpaint : paintAt i ' ' m = ' ' := if_neg fun hpainted => hcover hpainted.1
      have hrest : ∀ role, Struck role i (m :: marks) ↔ Struck role i marks := by
        intro role
        simp [Struck, hcover]
      rw [hpaint, ih hmarks]
      simp only [hrest]

/-! ## The marks of a line -/

theorem markLe_trans (a b c : Mark) (hab : markLe a b = true) (hbc : markLe b c = true) :
    markLe a c = true := by
  cases ha : a.role <;> cases hb : b.role <;> cases hc : c.role <;>
    simp [markLe, ha, hb, hc] at * <;> omega

theorem markLe_total (a b : Mark) : (markLe a b || markLe b a) = true := by
  cases ha : a.role <;> cases hb : b.role <;> simp [markLe, ha, hb] <;> omega

theorem mem_lineMarks : m ∈ lineMarks width labels ↔ ∃ l ∈ labels, markOf width l = m := by
  rw [lineMarks, (List.mergeSort_perm _ _).mem_iff, List.mem_map]

/-- Primary marks come first. -/
theorem pairwise_lineMarks : (lineMarks width labels).Pairwise
    fun a b => a.role = .secondary → b.role = .secondary := by
  refine (List.pairwise_mergeSort markLe_trans markLe_total _).imp fun {a b} hle ha => ?_
  cases hb : b.role with
  | primary => simp [markLe, ha, hb] at hle
  | secondary => rfl

theorem first_lt_last : ∀ m ∈ lineMarks width labels, m.first < m.last := by
  intro m hm
  obtain ⟨l, -, rfl⟩ := mem_lineMarks.mp hm
  exact Nat.lt_of_lt_of_le (Nat.lt_succ_self _) (Nat.le_max_right _ _)

/-- A mark covers what its label does. -/
theorem struck_lineMarks {role : Role} :
    Struck role i (lineMarks width labels) ↔ Covered role width i labels := by
  have hcovers : ∀ l : Label, Covers width i l ↔
      (markOf width l).first ≤ i + 1 ∧ i + 1 < (markOf width l).last := by
    intro l
    change (l.span.start.column : Int) - 1 ≤ i ∧ (i : Int) < stopColumn width l - 1 ↔
      l.span.start.column ≤ i + 1 ∧ i + 1 < stopColumn width l
    omega
  constructor
  · rintro ⟨m, hm, hrole, hcover⟩
    obtain ⟨l, hl, rfl⟩ := mem_lineMarks.mp hm
    exact ⟨l, hl, hrole, (hcovers l).mpr hcover⟩
  · rintro ⟨l, hl, hrole, hcover⟩
    exact ⟨_, mem_lineMarks.mpr ⟨l, hl, rfl⟩, hrole, (hcovers l).mp hcover⟩

/-- **No mark is painted outside of its row, and the row is that of the labels.** -/
theorem markRow_eq : markRow width (lineMarks width labels) = some (rowOf width labels) := by
  rw [markRow, foldlM_paint first_lt_last]
  refine congrArg some (List.ext_getElem? fun i => ?_)
  rw [List.getElem?_mapIdx, rowOf, List.getElem?_map]
  by_cases hi : i < width + 2
  · rw [List.getElem?_replicate_of_lt hi, List.getElem?_range hi, Option.map_some, Option.map_some,
      foldl_paintAt pairwise_lineMarks, glyphAt]
    simp only [struck_lineMarks]
  · rw [List.getElem?_eq_none (by simpa using hi), List.getElem?_eq_none (by simpa using hi)]
    rfl

/-! ## Trailing blanks -/

theorem trimEnd_eq : trimEnd row = row.rdropWhile (· == ' ') := rfl

/-- A row is what is shown of it, and blanks. -/
theorem trimEnd_append (row : List Char) : ∃ k, row = trimEnd row ++ List.replicate k ' ' := by
  have hblank : ∀ c ∈ row.rtakeWhile (· == ' '), c = ' ' := fun c hc =>
    eq_of_beq (List.mem_rtakeWhile_imp (p := (· == ' ')) hc)
  refine ⟨(row.rtakeWhile (· == ' ')).length, ?_⟩
  rw [← List.eq_replicate_of_mem hblank, trimEnd_eq, List.rdropWhile_append_rtakeWhile]

theorem getLast?_trimEnd : (trimEnd row).getLast? ≠ some ' ' := by
  by_cases hnil : trimEnd row = []
  · rw [hnil]
    exact nofun
  · rw [List.getLast?_eq_some_getLast hnil]
    intro hlast
    exact List.rdropWhile_last_not (· == ' ') row hnil (beq_iff_eq.mpr (Option.some.inj hlast))

theorem trimEnd_eq_nil : trimEnd row = [] ↔ ∀ c ∈ row, c = ' ' := by
  rw [trimEnd_eq, List.rdropWhile_eq_nil_iff]
  simp only [beq_iff_eq]

/-! ## Rows in a text -/

namespace Layout

variable {o : Layout}

theorem apply_eq (h : o.colours = false) {s : Style} {text : String} :
    Style.apply o.colours s text = text := by
  rw [h]
  rfl

theorem bar_eq (h : o.colours = false) : o.bar = "|" := apply_eq h

/-- Without colours a row is shown as it is. -/
theorem styledRow_eq (h : o.colours = false) : o.styledRow row = String.ofList row := by
  have hrole : ∀ role text, o.paintRole role text = text := fun role _ => by
    cases role <;> exact apply_eq h
  have hruns : o.styledRow row = String.join ((row.splitBy (· == ·)).map String.ofList) := by
    rw [styledRow]
    refine congrArg String.join (List.map_congr_left fun run _ => ?_)
    split <;> simp only [hrole]
  rw [hruns, ← String.toList_inj, String.toList_join, List.flatMap_map, String.toList_ofList]
  simp only [String.toList_ofList, List.flatMap_id']
  exact List.flatten_splitBy _ row

/-- The text under a line: nothing where the row is blank, and else the row up to its last
mark, behind the gutter. -/
def UnderRow (gutterWidth : Nat) (row : List Char) (text : String) : Prop :=
  ((∀ c ∈ row, c = ' ') ∧ text = "") ∨
    ∃ shown k rest, row = shown ++ List.replicate k ' ' ∧ shown ≠ [] ∧ shown.getLast? ≠ some ' ' ∧
      (rest.toList.head? = some ' ' ∨ rest.toList.head? = some '\n') ∧
      text = blanks (gutterWidth + 1) ++ " | " ++ String.ofList shown ++ rest

/-- A part of a text that shows a line of the source, and under it the row of the labels that start
there. -/
structure Underlines (o : Layout) (gutterWidth : Nat) (labels : List Label) (line : ShownLine)
    (block : String) : Prop where
  text : (LineMap.ofSource o.source).lineText line.number = some line.text
  labels : line.labels = labels.filter fun l => l.span.start.line == line.number
  block : ∃ previous under, UnderRow gutterWidth (rowOf line.text.utf8ByteSize line.labels) under ∧
    block = o.gap gutterWidth previous line ++
      (Style.padLeft (gutterWidth + 1) (toString line.number) ++ " | " ++ line.text ++ "\n") ++
        under

/-- The rows under a line are always there, and start with its marks. -/
theorem markLines_eq (h : o.colours = false) (gutterWidth : Nat) (line : ShownLine) :
    ∃ under, o.markLines gutterWidth line = some under ∧
      UnderRow gutterWidth (rowOf line.text.utf8ByteSize line.labels) under := by
  have hbar : ∀ rest, blanks (gutterWidth + 1) ++ " " ++ o.bar ++ " " ++ rest =
      blanks (gutterWidth + 1) ++ " | " ++ rest := by
    intro rest
    rw [bar_eq h]
    simp only [String.append_assoc]
    rfl
  rw [markLines, markRow_eq]
  refine ⟨_, rfl, ?_⟩
  generalize rowOf line.text.utf8ByteSize line.labels = row
  dsimp only
  split
  case isTrue hempty =>
    exact .inl ⟨trimEnd_eq_nil.mp (List.isEmpty_iff.mp hempty), rfl⟩
  case isFalse hempty =>
    obtain ⟨k, hrow⟩ := trimEnd_append row
    have hshown : trimEnd row ≠ [] := fun hnil => hempty (List.isEmpty_iff.mpr hnil)
    have hunder : ∀ rest : String, rest.toList.head? = some ' ' ∨ rest.toList.head? = some '\n' →
        UnderRow gutterWidth row (blanks (gutterWidth + 1) ++ " " ++ o.bar ++ " " ++
          (String.ofList (trimEnd row) ++ rest)) := fun rest hrest =>
      .inr ⟨trimEnd row, k, rest, hrow, hshown, getLast?_trimEnd, hrest, by
        rw [hbar, ← String.append_assoc]⟩
    rw [styledRow_eq h]
    split
    · simpa only [String.append_assoc] using hunder "\n" (by simp)
    · simpa only [String.append_assoc] using hunder (" " ++ _) (by simp)
    · simpa only [String.append_assoc] using hunder ("\n" ++ _) (by simp)

/-- The shown lines, one after the other. -/
theorem lineBlocks_eq (h : o.colours = false) (gutterWidth : Nat) {lines : List ShownLine}
    (previous : Option Nat)
    (hlines : ∀ line ∈ lines, (LineMap.ofSource o.source).lineText line.number = some line.text ∧
      line.labels = labels.filter fun l => l.span.start.line == line.number) :
    ∃ blocks, o.lineBlocks gutterWidth previous lines = some (String.join blocks) ∧
      List.Forall₂ (o.Underlines gutterWidth labels) lines blocks := by
  have hnumbered : ∀ line, o.numberedLine gutterWidth line =
      Style.padLeft (gutterWidth + 1) (toString line.number) ++ " | " ++ line.text ++ "\n" := by
    intro line
    rw [numberedLine, bar_eq h, apply_eq h]
    simp only [String.append_assoc]
    rfl
  induction lines generalizing previous with
  | nil => exact ⟨[], rfl, .nil⟩
  | cons line lines ih =>
    obtain ⟨⟨htext, hlabels⟩, hlines⟩ := List.forall_mem_cons.mp hlines
    obtain ⟨blocks, hblocks, hall⟩ := ih (some line.number) hlines
    obtain ⟨under, hunder, hrow⟩ := markLines_eq h gutterWidth line
    refine ⟨_ :: blocks, ?_, .cons ⟨htext, hlabels, previous, under, hrow, rfl⟩ hall⟩
    rw [lineBlocks, lineBlock, hunder, hblocks, hnumbered, String.join_cons]
    rfl

theorem mem_shownLines {lines : LineMap} {line : ShownLine} (h : line ∈ shownLines lines labels) :
    lines.lineText line.number = some line.text ∧
      line.labels = labels.filter fun l => l.span.start.line == line.number := by
  obtain ⟨n, -, hline⟩ := List.mem_filterMap.mp h
  obtain ⟨text, htext, rfl⟩ := Option.map_eq_some_iff.mp hline
  exact ⟨htext, rfl⟩

/-- **A row marks the labelled columns.**  Without colours a diagnostic is always shown: a head,
the lines that labels start on with the rows of these labels, and a foot.  The order of the labels
does not matter to a row. -/
theorem format_underlines {o : Layout} (h : o.colours = false) (d : Diagnostic) :
    (∃ gutterWidth head blocks foot, o.format? d = some (head ++ String.join blocks ++ foot) ∧
      List.Forall₂ (o.Underlines gutterWidth d.labels)
        (shownLines (LineMap.ofSource o.source) d.labels) blocks) ∧
    ∀ (labels : List Label) width n, labels.Perm d.labels →
      markRow width (lineMarks width (labels.filter fun l => l.span.start.line == n)) =
        markRow width (lineMarks width (d.labels.filter fun l => l.span.start.line == n)) := by
  refine ⟨?_, fun labels width n hperm => ?_⟩
  · have hlines := fun line => @mem_shownLines d.labels (LineMap.ofSource o.source) line
    rw [format?]
    cases hlast : (shownLines (LineMap.ofSource o.source) d.labels).getLast? with
    | none =>
      have hnil := List.getLast?_eq_none_iff.mp hlast
      rw [hnil]
      refine ⟨0, o.header d ++ o.footer d, [], "", ?_, .nil⟩
      cases d.primarySpan <;> simp
    | some last =>
      cases hspan : d.primarySpan with
      | none =>
        have hlabels : d.labels = [] := by
          rw [Diagnostic.primarySpan, Option.map_eq_none_iff, Option.or_eq_none_iff] at hspan
          exact List.head?_eq_none_iff.mp hspan.2
        rw [hlabels] at hlast
        cases hlast
      | some span =>
        obtain ⟨blocks, hblocks, hall⟩ := lineBlocks_eq h
          (max (toString last.number).length 2) none hlines
        dsimp only
        rw [hblocks]
        exact ⟨_, _, blocks, _, congrArg some String.append_assoc, hall⟩
  · rw [markRow_eq, markRow_eq, rowOf_perm (hperm.filter _)]

/-- The same for a text with a label of each role, of which the primary one covers less. -/
theorem format_underlines_nested : ∃ gutterWidth head blocks foot,
    format? ⟨false, none, "a:int"⟩ ⟨.error, none, "", [⟨⟨⟨1, 1⟩, ⟨1, 6⟩⟩, .secondary, none⟩,
      ⟨⟨⟨1, 2⟩, ⟨1, 2⟩⟩, .primary, none⟩], [], none⟩ =
        some (head ++ String.join blocks ++ foot) ∧
    List.Forall₂ (Underlines ⟨false, none, "a:int"⟩ gutterWidth
      [⟨⟨⟨1, 1⟩, ⟨1, 6⟩⟩, .secondary, none⟩, ⟨⟨⟨1, 2⟩, ⟨1, 2⟩⟩, .primary, none⟩])
      (shownLines (LineMap.ofSource "a:int")
        [⟨⟨⟨1, 1⟩, ⟨1, 6⟩⟩, .secondary, none⟩, ⟨⟨⟨1, 2⟩, ⟨1, 2⟩⟩, .primary, none⟩]) blocks :=
  (@format_underlines ⟨false, none, "a:int"⟩ rfl _).1

example : rowOf 5 [⟨⟨⟨1, 1⟩, ⟨1, 6⟩⟩, .secondary, none⟩, ⟨⟨⟨1, 2⟩, ⟨1, 2⟩⟩, .primary, none⟩] =
    "-^---  ".toList := by decide

end Layout

end Terminal

end Ascription
