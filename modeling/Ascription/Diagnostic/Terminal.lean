import Ascription.Diagnostic
import Ascription.Source.LineMap
import Ascription.Text.Style

/-!
# Diagnostic/Terminal — diagnostics for a terminal

    error[E0208]: 'x' is declared as int at 1:9-1:10 but annotated as string
      --> <expr>:1:16
        |
      1 | declare x: int x:string
        |         -      ^^^^^^^^
        |                | annotated as `string`
        |         | declared here
        |
        = help: drop the annotation and write `x` alone to use the declared type

Every line that a label starts on is shown once, with a row of marks below it: carets for primary
labels, dashes for secondary ones.  A label that ends on another line is marked up to the end of its
first line.
-/

namespace Ascription

namespace Terminal

/-! ## The row of marks -/

/-- A label on one line, as the places of the row that it covers. -/
structure Mark where
  first : Nat
  last : Nat
  role : Role
  message : Option String

/-- The mark of a label on a line of `width` bytes; it covers at least one place. -/
def markOf (width : Nat) (l : Label) : Mark :=
  let stop := if l.span.stop.line = l.span.start.line then l.span.stop.column else width + 1
  ⟨l.span.start.column, max stop (l.span.start.column + 1), l.role, l.message⟩

/-- Primary marks first, then from left to right. -/
def markLe (a b : Mark) : Bool :=
  match a.role, b.role with
  | .primary, .secondary => true
  | .secondary, .primary => false
  | _, _ => a.first ≤ b.first

/-- The character of a mark. -/
def glyph : Role → Char
  | .primary => '^'
  | .secondary => '-'

/-- Painting the blanks from one place of a row up to another.  There is no such stretch of the row
unless the places are in order and none is behind its end. -/
def paintStretch (mark : Char) (start stop : Nat) (row : List Char) : Option (List Char) :=
  if start ≤ stop ∧ stop ≤ row.length then
    some (row.take start ++ ((row.take stop).drop start).map
      (fun c => if c = ' ' then mark else c) ++
      row.drop stop)
  else none

/-- Painting a mark over the blanks of a row, clipped to its places. -/
def paint (row : List Char) (m : Mark) : Option (List Char) :=
  paintStretch (glyph m.role) (min (m.first - 1) row.length) (min (m.last - 1) row.length) row

/-- **The row of marks** under a line of `width` bytes. -/
def markRow (width : Nat) (marks : List Mark) : Option (List Char) :=
  marks.foldlM paint (List.replicate (width + 2) ' ')

/-- The marks of labels on a line of `width` bytes, in the order in which they are painted. -/
def lineMarks (width : Nat) (labels : List Label) : List Mark :=
  (labels.map (markOf width)).mergeSort markLe

/-- A row without its trailing blanks. -/
def trimEnd (row : List Char) : List Char := (row.reverse.dropWhile (· == ' ')).reverse

/-! ## Lines -/

/-- A shown line with its labels. -/
structure ShownLine where
  number : Nat
  text : String
  labels : List Label

/-- Line numbers in ascending order, each once. -/
def insertNumber (n : Nat) : List Nat → List Nat
  | [] => [n]
  | m :: rest => if n = m then m :: rest else if n < m then n :: m :: rest
    else m :: insertNumber n rest

/-- **The lines that labels start on**, in ascending order; labels outside the text are left out. -/
def shownLines (lines : LineMap) (labels : List Label) : List ShownLine :=
  let numbers := (labels.map fun l => l.span.start.line).foldl (fun ns n => insertNumber n ns) []
  numbers.filterMap fun n => (lines.lineText n).map fun text =>
    ⟨n, text, labels.filter fun l => l.span.start.line == n⟩

/-! ## Layout -/

/-- Where and how a diagnostic is shown. -/
structure Layout where
  colours : Bool
  file : Option String
  source : String

namespace Layout

variable (o : Layout)

def paintRole (role : Role) (text : String) : String :=
  match role with
  | .primary => Style.apply o.colours Style.boldRed text
  | .secondary => Style.apply o.colours Style.blue text

def bar : String := Style.apply o.colours Style.blue "|"

/-- Blanks. -/
def blanks (n : Nat) : String := String.ofList (List.replicate n ' ')

/-- A row of marks with its runs of carets and dashes styled. -/
def styledRow (row : List Char) : String :=
  String.join ((row.splitBy (· == ·)).map fun run =>
    match run.head? with
    | some '^' => o.paintRole .primary (String.ofList run)
    | some '-' => o.paintRole .secondary (String.ofList run)
    | _ => String.ofList run)

/-- The first line: severity, code and message. -/
def header (d : Diagnostic) : String :=
  let style := match d.severity with
    | .error => Style.boldRed
    | .warning => Style.boldYellow
    | .note => Style.boldBlue
  let code := match d.code with
    | some c => "[" ++ Style.apply o.colours Style.boldRed c ++ "]"
    | none => ""
  Style.apply o.colours style d.severity.text ++ code ++ ": " ++
    Style.apply o.colours Style.bold d.message ++ "\n"

/-- One line of notes or advice. -/
def remark (title text : String) : String :=
  blanks 3 ++ " " ++ Style.apply o.colours Style.cyan "=" ++ " " ++
    Style.apply o.colours Style.boldCyan title ++ ": " ++ text ++ "\n"

/-- The last lines: notes and advice. -/
def footer (d : Diagnostic) : String :=
  String.join (d.notes.map (o.remark "note")) ++
    (match d.help with
      | some help => o.remark "help" help
      | none => "")

/-- Several messages under one row, the rightmost first, each under its mark. -/
def messageLines (gutter : String) (marks : List Mark) (width : Nat) : String :=
  let messages := marks.filterMap fun m =>
    m.message.map fun text => (min (m.first - 1) width, m.role, text)
  let sorted := messages.mergeSort fun a b => b.1 ≤ a.1
  String.join (sorted.map fun (column, role, text) =>
    gutter ++ " " ++ blanks column ++ o.paintRole role "|" ++ " " ++ o.paintRole role text ++ "\n")

/-- The rows under a line: its marks, and their messages. -/
def markLines (gutterWidth : Nat) (line : ShownLine) : Option String := do
  let width := line.text.utf8ByteSize
  let marks := lineMarks width line.labels
  let row := trimEnd (← markRow width marks)
  return if row.isEmpty then ""
  else
    let gutter := blanks (gutterWidth + 1) ++ " " ++ o.bar
    match marks.filterMap fun m => m.message.map fun text => (m.role, text) with
    | [] => gutter ++ " " ++ o.styledRow row ++ "\n"
    | [(role, text)] =>
      gutter ++ " " ++ o.styledRow row ++ " " ++ o.paintRole role text ++ "\n"
    | _ => gutter ++ " " ++ o.styledRow row ++ "\n" ++ o.messageLines gutter marks (width + 2)

/-- The gap before a line, where lines are left out. -/
def gap (gutterWidth : Nat) (previous : Option Nat) (line : ShownLine) : String :=
  match previous with
  | some n =>
    if n + 1 < line.number then
      blanks gutterWidth ++ " " ++ Style.apply o.colours Style.blue "..." ++ "\n"
    else ""
  | none => ""

/-- A line of the text behind its number. -/
def numberedLine (gutterWidth : Nat) (line : ShownLine) : String :=
  Style.apply o.colours Style.boldBlue (Style.padLeft (gutterWidth + 1) (toString line.number)) ++
    " " ++ o.bar ++ " " ++ line.text ++ "\n"

/-- A shown line, its rows, and a gap before it where lines are left out. -/
def lineBlock (gutterWidth : Nat) (previous : Option Nat) (line : ShownLine) : Option String := do
  return o.gap gutterWidth previous line ++ o.numberedLine gutterWidth line ++
    (← o.markLines gutterWidth line)

/-- The shown lines one after the other. -/
def lineBlocks (gutterWidth : Nat) (previous : Option Nat) : List ShownLine → Option String
  | [] => some ""
  | line :: rest => do
    return (← o.lineBlock gutterWidth previous line) ++
      (← lineBlocks gutterWidth (some line.number) rest)

/-- The name of the file, and where the diagnostic points in it. -/
def place (span : Span) : String :=
  o.file.getD "<expr>" ++ ":" ++ toString span.start.line ++ ":" ++ toString span.start.column

/-- **A diagnostic as text**, unless a mark is painted outside of its row.  Without a line to show
it is its header and footer. -/
def format? (d : Diagnostic) : Option String :=
  let lines := shownLines (LineMap.ofSource o.source) d.labels
  match d.primarySpan, lines.getLast? with
  | some span, some last => do
    let gutterWidth := max (toString last.number).length 2
    let rule := blanks (gutterWidth + 1) ++ " " ++ o.bar ++ "\n"
    return o.header d ++ "  " ++ Style.apply o.colours Style.blue "-->" ++ " " ++ o.place span ++
      "\n" ++
      rule ++ (← o.lineBlocks gutterWidth none lines) ++
      (if d.notes.isEmpty && d.help.isNone then "" else rule) ++ o.footer d
  | _, _ => some (o.header d ++ o.footer d)

/-- **A diagnostic as text.** No mark is ever painted outside of its row. -/
def format (d : Diagnostic) : String := (o.format? d).getD ""

end Layout

end Terminal

end Ascription
